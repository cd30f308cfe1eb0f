import Trivalent.Expr.Printer

/-!
# Terms

A guard or the right-hand side of an update: an expression, or a choice between two.  The left
expression of a choice tells when the abstracted condition may hold, the right one when it may
fail.
-/

namespace Trivalent

/-- A guard or the right-hand side of an update. -/
inductive Term where
  /-- An ordinary expression. -/
  | plain (body : Expr)
  /-- An abstracted condition: it may hold where `left` does, and fail where `right` does. -/
  | choice (left right : Expr)
  deriving Repr, BEq

namespace Term

instance : Inhabited Term :=
  ⟨.plain default⟩

/-- The guard that always holds. -/
def always : Term :=
  .plain (.literal true)

/-- Whether a term is the guard that always holds. -/
def isAlways : Term → Bool
  | .plain body => body.isLiteral true
  | .choice _ _ => false

theorem isAlways_eq_true_iff {term : Term} : term.isAlways = true ↔ term = always := by
  cases term <;> simp [isAlways, always, Expr.isLiteral_eq_true_iff]

/-- A term as a choice: an expression may fail where its negation holds. -/
def asChoice : Term → Expr × Expr
  | .plain body => (body, body.negate)
  | .choice left right => (left, right)

/-- The predicates of a term, ascending. -/
def predicates : Term → List Nat
  | .plain body => body.predicates
  | .choice left right => ascending (left.occurrences ++ right.occurrences)

/-- The text of a term whose predicates are written by `name`. -/
def write (name : Nat → List Char) : Term → List Char
  | .plain body => body.write name
  | .choice left right =>
      "choice(".toList ++ left.write name ++ ", ".toList ++ right.write name ++ [')']

/-- The text of a term whose predicates are written as their numbers. -/
def text (term : Term) : String :=
  String.ofList (term.write Numeral.digits)

end Term

end Trivalent
