/-!
# Three-valued statuses

The value of a predicate that abstracts a condition of the program: known to hold, known not to
hold, or unknown.  Connectives follow Kleene's strong three-valued logic, and `below` orders
statuses by information.
-/

namespace Trivalent

/-- The value of a three-valued predicate. -/
inductive Status where
  /-- The condition holds. -/
  | yes
  /-- The condition does not hold. -/
  | no
  /-- The abstraction does not tell. -/
  | unknown
  deriving DecidableEq, Repr

namespace Status

/-- How a status is shown in a witness. -/
def text : Status → String
  | .yes => "true"
  | .no => "false"
  | .unknown => "unknown"

/-- The name of a status in serialised witnesses. -/
def name : Status → String
  | .yes => "True"
  | .no => "False"
  | .unknown => "Unknown"

/-- A known status. -/
def ofBool (value : Bool) : Status :=
  if value then .yes else .no

/-! ## Kleene's connectives -/

/-- Negation keeps the unknown. -/
def neg : Status → Status
  | .yes => .no
  | .no => .yes
  | .unknown => .unknown

/-- Conjunction is the smaller of its sides where `no` is below `unknown` is below `yes`. -/
def and : Status → Status → Status
  | .no, _ => .no
  | _, .no => .no
  | .yes, .yes => .yes
  | _, _ => .unknown

/-- Disjunction is the larger of its sides where `no` is below `unknown` is below `yes`. -/
def or : Status → Status → Status
  | .yes, _ => .yes
  | _, .yes => .yes
  | .no, .no => .no
  | _, _ => .unknown

@[simp]
theorem neg_neg (s : Status) : s.neg.neg = s := by
  cases s <;> rfl

theorem neg_and (s t : Status) : (s.and t).neg = s.neg.or t.neg := by
  cases s <;> cases t <;> rfl

theorem neg_or (s t : Status) : (s.or t).neg = s.neg.and t.neg := by
  cases s <;> cases t <;> rfl

/-- `s` carries no information that `t` lacks: it is unknown or equal to `t`. -/
def Below (s t : Status) : Prop :=
  s = .unknown ∨ s = t

instance (s t : Status) : Decidable (s.Below t) :=
  inferInstanceAs (Decidable (_ ∨ _))

end Status

end Trivalent
