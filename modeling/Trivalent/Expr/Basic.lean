import Trivalent.Ascending

/-!
# Expressions over predicates

Propositional expressions over numbered predicates.  The constructors keep any shape; `neg`, `conj`
and `disj` build the same meanings while folding constants, double negations and nested operands.
`nnf` and `negate` push negations down to the predicates.
-/

namespace Trivalent

/-- A propositional expression over numbered predicates. -/
inductive Expr where
  /-- A constant. -/
  | literal (value : Bool)
  /-- An occurrence of a predicate. -/
  | predicate (id : Nat)
  /-- A negation. -/
  | not (body : Expr)
  /-- A conjunction; the empty one is true. -/
  | and (operands : List Expr)
  /-- A disjunction; the empty one is false. -/
  | or (operands : List Expr)
  deriving Repr, BEq

namespace Expr

instance : Inhabited Expr :=
  ⟨.literal true⟩

/-- Whether the expression is the given constant. -/
def isLiteral (value : Bool) : Expr → Bool
  | .literal constant => constant == value
  | _ => false

theorem isLiteral_eq_true_iff {value : Bool} {e : Expr} :
    e.isLiteral value = true ↔ e = .literal value := by
  cases e <;> simp [isLiteral]

/-! ## Folding constructors -/

/-- Negation that folds a constant and cancels a negation. -/
def neg : Expr → Expr
  | .literal value => .literal !value
  | .not body => body
  | e => .not e

/-- What an operand contributes to a conjunction: nothing if it is true, its own operands if it is
a conjunction. -/
def conjuncts : Expr → List Expr
  | .literal true => []
  | .and operands => operands
  | e => [e]

/-- What an operand contributes to a disjunction: nothing if it is false, its own operands if it
is a disjunction. -/
def disjuncts : Expr → List Expr
  | .literal false => []
  | .or operands => operands
  | e => [e]

/-- Conjunction that takes over the operands of conjunctions and folds constants. -/
def conj (operands : List Expr) : Expr :=
  if operands.any (isLiteral false) then .literal false
  else
    match operands.flatMap conjuncts with
    | [] => .literal true
    | [e] => e
    | merged => .and merged

/-- Disjunction that takes over the operands of disjunctions and folds constants. -/
def disj (operands : List Expr) : Expr :=
  if operands.any (isLiteral true) then .literal true
  else
    match operands.flatMap disjuncts with
    | [] => .literal false
    | [e] => e
    | merged => .or merged

/-! ## Negation normal form -/

mutual

/-- The expression, or its negation, with negations at predicates only. -/
def polarised (negated : Bool) : Expr → Expr
  | .literal value => .literal (value != negated)
  | .predicate id => if negated then .not (.predicate id) else .predicate id
  | .not body => polarised (!negated) body
  | .and operands =>
      if negated then disj (polarisedAll true operands) else conj (polarisedAll false operands)
  | .or operands =>
      if negated then conj (polarisedAll true operands) else disj (polarisedAll false operands)

/-- Every expression of a list, or its negation, with negations at predicates only. -/
def polarisedAll (negated : Bool) : List Expr → List Expr
  | [] => []
  | e :: rest => polarised negated e :: polarisedAll negated rest

end

theorem polarisedAll_eq_map (negated : Bool) (operands : List Expr) :
    polarisedAll negated operands = operands.map (polarised negated) := by
  induction operands with
  | nil => rfl
  | cons e rest ih => simp [polarisedAll, ih]

/-- The negation of an expression, in negation normal form. -/
def negate (e : Expr) : Expr :=
  e.polarised true

/-- The expression in negation normal form. -/
def nnf (e : Expr) : Expr :=
  e.polarised false

/-! ## Predicates -/

mutual

/-- The occurrences of predicates, from left to right. -/
def occurrences : Expr → List Nat
  | .literal _ => []
  | .predicate id => [id]
  | .not body => body.occurrences
  | .and operands => occurrencesAll operands
  | .or operands => occurrencesAll operands

/-- The occurrences of predicates in a list of expressions, from left to right. -/
def occurrencesAll : List Expr → List Nat
  | [] => []
  | e :: rest => e.occurrences ++ occurrencesAll rest

end

theorem occurrencesAll_eq_flatMap (operands : List Expr) :
    occurrencesAll operands = operands.flatMap occurrences := by
  induction operands with
  | nil => rfl
  | cons e rest ih => simp [occurrencesAll, ih]

/-- The predicates of an expression, ascending. -/
def predicates (e : Expr) : List Nat :=
  ascending e.occurrences

end Expr

end Trivalent
