import Trivalent.Proofs.Expr.Reading
import Trivalent.Term

/-!
# The meaning of terms

What a guard and the right-hand side of an update mean in a state, given the statuses of the
predicates and how unknown conditions are read.  A choice is told apart by the constants that stand
in it, before anything is evaluated.
-/

namespace Trivalent.Term

/-- Whether a guard holds.  A choice holds if its left side does or its right side does not; if
neither side holds the wildcard decides. -/
def holds (wildcard : Bool) (status : Nat → Status) : Term → Bool
  | .plain body => (body.kleene status).reads wildcard
  | .choice left right =>
      if left.isLiteral true then true
      else if right.isLiteral true then false
      else if left.isLiteral false && right.isLiteral false then wildcard
      else
        ((left.kleene status).reads wildcard || (right.kleene status).neg.reads wildcard) &&
          ((left.kleene status).reads wildcard || (right.kleene status).reads wildcard || wildcard)

/-- Whether a choice may give a predicate the status `after`: true if the left side holds, false if
the right side does, and unknown if neither is sure to. -/
def choiceAllows (wildcard : Bool) (status : Nat → Status) (left right : Expr) (after : Status) :
    Bool :=
  if left.isLiteral true then after = .yes
  else if left.isLiteral false && right.isLiteral true then after = .no
  else if left.isLiteral false && right.isLiteral false then after = .unknown
  else
    (left.kleene status).reads wildcard && after = .yes ||
      (right.kleene status).reads wildcard && after = .no ||
      ((left.kleene status).or (right.kleene status)).neg.reads true && after = .unknown

/-- Whether an update by a term may give its predicate the status `after`. -/
def allows (wildcard : Bool) (status : Nat → Status) (term : Term) (after : Status) : Bool :=
  choiceAllows wildcard status term.asChoice.1 term.asChoice.2 after

end Trivalent.Term
