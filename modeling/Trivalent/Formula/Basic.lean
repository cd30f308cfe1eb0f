import Trivalent.Ascending
import Trivalent.Formula.Atom

/-!
# Propositional formulas

Formulas over timestamped atoms.  True is the empty conjunction and false the empty disjunction.
`neg`, `conj` and `disj` fold constants, double negations and nested operands; a valuation gives
every formula its value.
-/

namespace Trivalent

/-- A propositional formula. -/
inductive Formula where
  /-- An atom. -/
  | atom (a : Atom)
  /-- A negation. -/
  | not (body : Formula)
  /-- A conjunction. -/
  | and (operands : List Formula)
  /-- A disjunction. -/
  | or (operands : List Formula)
  deriving Repr, BEq

/-- A truth value for every atom. -/
abbrev Valuation : Type :=
  Atom → Bool

namespace Formula

/-- The constant that is true or false. -/
def constant (value : Bool) : Formula :=
  if value then .and [] else .or []

instance : Inhabited Formula :=
  ⟨constant true⟩

/-! ## Values -/

mutual

/-- The value of a formula. -/
def eval (v : Valuation) : Formula → Bool
  | .atom a => v a
  | .not body => !body.eval v
  | .and operands => evalAll v operands
  | .or operands => evalAny v operands

/-- Whether all formulas of a list are true. -/
def evalAll (v : Valuation) : List Formula → Bool
  | [] => true
  | f :: rest => f.eval v && evalAll v rest

/-- Whether some formula of a list is true. -/
def evalAny (v : Valuation) : List Formula → Bool
  | [] => false
  | f :: rest => f.eval v || evalAny v rest

end

theorem evalAll_eq_all (v : Valuation) (operands : List Formula) :
    evalAll v operands = operands.all (eval v) := by
  induction operands with
  | nil => rfl
  | cons f rest ih => simp [evalAll, ih]

theorem evalAny_eq_any (v : Valuation) (operands : List Formula) :
    evalAny v operands = operands.any (eval v) := by
  induction operands with
  | nil => rfl
  | cons f rest ih => simp [evalAny, ih]

@[simp]
theorem eval_constant (v : Valuation) (value : Bool) : (constant value).eval v = value := by
  cases value <;> rfl

/-! ## Folding constructors -/

/-- Whether the formula is the constant true. -/
def isTrue : Formula → Bool
  | .and [] => true
  | _ => false

/-- Whether the formula is the constant false. -/
def isFalse : Formula → Bool
  | .or [] => true
  | _ => false

/-- Negation that swaps the constants and cancels a negation. -/
def neg : Formula → Formula
  | .not body => body
  | .and [] => .or []
  | .or [] => .and []
  | f => .not f

/-- What an operand contributes to a conjunction: its own operands if it is a conjunction. -/
def conjuncts : Formula → List Formula
  | .and operands => operands
  | f => [f]

/-- What an operand contributes to a disjunction: its own operands if it is a disjunction. -/
def disjuncts : Formula → List Formula
  | .or operands => operands
  | f => [f]

/-- Conjunction that takes over the operands of conjunctions and folds constants. -/
def conj (operands : List Formula) : Formula :=
  if operands.any isFalse then constant false
  else
    match operands.flatMap conjuncts with
    | [f] => f
    | merged => .and merged

/-- Disjunction that takes over the operands of disjunctions and folds constants. -/
def disj (operands : List Formula) : Formula :=
  if operands.any isTrue then constant true
  else
    match operands.flatMap disjuncts with
    | [f] => f
    | merged => .or merged

/-- Both formulas have the same value. -/
def iff (f g : Formula) : Formula :=
  disj [conj [f, g], conj [neg f, neg g]]

/-- The second formula is true if the first one is. -/
def implies (f g : Formula) : Formula :=
  disj [neg f, g]

@[simp]
theorem eval_neg (v : Valuation) (f : Formula) : (neg f).eval v = !f.eval v := by
  unfold neg
  split <;> simp [eval, evalAll, evalAny]

/-! ## Constant values -/

mutual

/-- The value of a formula as far as its constants tell.  Operands are looked at from left to
right, and an undecided operand leaves the formula undecided unless an earlier one decides it. -/
def truth : Formula → Option Bool
  | .atom _ => none
  | .not body => body.truth.map (!·)
  | .and operands => truthAll operands
  | .or operands => truthAny operands

/-- The constant value of the conjunction of a list. -/
def truthAll : List Formula → Option Bool
  | [] => some true
  | f :: rest =>
      match f.truth with
      | some true => truthAll rest
      | undecidedOrFalse => undecidedOrFalse

/-- The constant value of the disjunction of a list. -/
def truthAny : List Formula → Option Bool
  | [] => some false
  | f :: rest =>
      match f.truth with
      | some false => truthAny rest
      | undecidedOrTrue => undecidedOrTrue

end

/-! ## Atoms -/

mutual

/-- The occurrences of atoms, from left to right, before those of `later`. -/
def gather (later : List Atom) : Formula → List Atom
  | .atom a => a :: later
  | .not body => gather later body
  | .and operands => gatherAll later operands
  | .or operands => gatherAll later operands

/-- The occurrences of atoms in a list of formulas, before those of `later`. -/
def gatherAll (later : List Atom) : List Formula → List Atom
  | [] => later
  | f :: rest => gather (gatherAll later rest) f

end

/-- The occurrences of atoms, from left to right. -/
def occurrences (f : Formula) : List Atom :=
  gather [] f

/-- The atoms of a formula, ascending. -/
def atoms (f : Formula) : List Atom :=
  ascending f.occurrences

/-! ## Moving in time -/

mutual

/-- The formula with every atom moved some steps into the future. -/
def shift (steps : Nat) : Formula → Formula
  | .atom a => .atom (a.shift steps)
  | .not body => .not (body.shift steps)
  | .and operands => .and (shiftAll steps operands)
  | .or operands => .or (shiftAll steps operands)

/-- A list of formulas with every atom moved some steps into the future. -/
def shiftAll (steps : Nat) : List Formula → List Formula
  | [] => []
  | f :: rest => f.shift steps :: shiftAll steps rest

end

theorem shiftAll_eq_map (steps : Nat) (operands : List Formula) :
    shiftAll steps operands = operands.map (shift steps) := by
  induction operands with
  | nil => rfl
  | cons f rest ih => simp [shiftAll, ih]

/-- The formula with every atom moved some steps into the future, if all steps stay words. -/
def shiftWord (steps : Nat) (f : Formula) : Except Fault Formula :=
  if f.occurrences.all fun a => a.Shiftable steps then .ok (f.shift steps)
  else .error .addOverflow

theorem shiftWord_eq_ok_iff {steps : Nat} {f g : Formula} :
    f.shiftWord steps = .ok g ↔ (∀ a ∈ f.occurrences, a.Shiftable steps) ∧ f.shift steps = g := by
  unfold shiftWord
  split
  · rename_i fits
    rw [Except.ok.injEq, and_iff_right]
    simpa using fits
  · rename_i stuck
    simp only [reduceCtorEq, false_iff, not_and]
    exact fun fits => absurd (by simpa using fits) stuck

theorem shiftWord_eq_error_iff {steps : Nat} {f : Formula} {fault : Fault} :
    f.shiftWord steps = .error fault ↔
      (∃ a ∈ f.occurrences, ¬a.Shiftable steps) ∧ fault = .addOverflow := by
  unfold shiftWord
  split
  · rename_i fits
    simp only [reduceCtorEq, false_iff, not_and]
    rintro ⟨a, member, stuck⟩
    exact absurd (of_decide_eq_true (List.all_eq_true.mp fits a member)) stuck
  · rename_i stuck
    rw [Except.error.injEq, and_iff_right, eq_comm]
    simpa using stuck

/-! ## Fixing an atom -/

mutual

/-- The formula with a constant in place of an atom, folded. -/
def substitute (fixed : Atom) (value : Bool) : Formula → Formula
  | .atom a => if a = fixed then constant value else .atom a
  | .not body => neg (body.substitute fixed value)
  | .and operands => conj (substituteAll fixed value operands)
  | .or operands => disj (substituteAll fixed value operands)

/-- A list of formulas with a constant in place of an atom, folded. -/
def substituteAll (fixed : Atom) (value : Bool) : List Formula → List Formula
  | [] => []
  | f :: rest => f.substitute fixed value :: substituteAll fixed value rest

end

theorem substituteAll_eq_map (fixed : Atom) (value : Bool) (operands : List Formula) :
    substituteAll fixed value operands = operands.map (substitute fixed value) := by
  induction operands with
  | nil => rfl
  | cons f rest ih => simp [substituteAll, ih]

end Formula

end Trivalent
