import Trivalent.Verdict

/-!
# Events

What happens during a check, as it is logged.
-/

namespace Trivalent

/-- Something worth logging. -/
inductive Event where
  /-- The transitions of a system were written as formulas. -/
  | encoded (templates : Nat)
  /-- A query was answered. -/
  | answered (step : Nat) (phase : Phase) (satisfiable : Bool)
  /-- A violation was found. -/
  | violation (verdict : Verdict) (step : Nat)
  /-- There is no violation up to the bound. -/
  | exhausted (bound : Nat)
  /-- A path of the abstract system was followed in the concrete one. -/
  | replayed (step : Nat) (concrete : Verdict)
  /-- The target is outside the locations of a process. -/
  | neverReached (process locations target : Nat)
  deriving DecidableEq, Repr

namespace Event

/-- The weight of an event. -/
def level : Event → String
  | .encoded _ => "DEBUG"
  | .answered _ _ _ => "DEBUG"
  | .violation _ _ => "INFO"
  | .exhausted _ => "INFO"
  | .replayed _ _ => "INFO"
  | .neverReached _ _ _ => "WARN"

/-- The message of an event; a query took `milliseconds`. -/
def message (milliseconds : Nat) : Event → String
  | .encoded templates => s!"encoded {templates} template transitions"
  | .answered step phase satisfiable =>
      s!"k={step} {phase.name}: " ++ (if satisfiable then "sat" else "unsat") ++
        s!" ({milliseconds}ms)"
  | .violation verdict step => s!"{verdict.name} violation at timestep {step}"
  | .exhausted bound => s!"no violation up to bound {bound}"
  | .replayed step concrete =>
      s!"abstract witness at timestep {step} is {concrete.name} in the concrete model"
  | .neverReached process locations target =>
      s!"process {process} has {locations} locations, so location {target} is never reached"

/-- The answered query that an event tells of. -/
def query? : Event → Option (Phase × Bool)
  | .answered _ phase satisfiable => some (phase, satisfiable)
  | _ => none

end Event

end Trivalent
