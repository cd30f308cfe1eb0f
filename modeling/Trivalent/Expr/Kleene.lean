import Trivalent.Expr.Basic
import Trivalent.Status

/-!
# The three-valued value of an expression

Expressions are read in Kleene's strong logic, with a status for every predicate.
-/

namespace Trivalent.Expr

mutual

/-- The value of an expression when its predicates have the given statuses. -/
def kleene (status : Nat → Status) : Expr → Status
  | .literal value => .ofBool value
  | .predicate id => status id
  | .not body => (body.kleene status).neg
  | .and operands => kleeneAll status operands
  | .or operands => kleeneAny status operands

/-- The value of the conjunction of a list. -/
def kleeneAll (status : Nat → Status) : List Expr → Status
  | [] => .yes
  | e :: rest => (e.kleene status).and (kleeneAll status rest)

/-- The value of the disjunction of a list. -/
def kleeneAny (status : Nat → Status) : List Expr → Status
  | [] => .no
  | e :: rest => (e.kleene status).or (kleeneAny status rest)

end

end Trivalent.Expr
