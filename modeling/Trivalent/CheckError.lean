import Trivalent.Configuration

/-!
# Errors of a check

Why a check ends without a verdict.
-/

namespace Trivalent

/-- Why a check ends without a verdict. -/
inductive CheckError where
  /-- A number leaves its range, or a search is asked for what it cannot do. -/
  | fault (cause : Fault)
  /-- The configuration does not fit a system. -/
  | configuration (error : ConfigurationError)
  /-- The solver gave no answer. -/
  | solverFailed
  /-- The concrete system depends on unknown predicates at a step. -/
  | uncertain (step : Nat)
  deriving DecidableEq, Repr

/-- The wording of an error. -/
def CheckError.message : CheckError → String
  | .fault cause => cause.message
  | .configuration error => error.message
  | .solverFailed => "solver failed, likely a timeout"
  | .uncertain step =>
      s!"the concrete model has unknown predicates at timestep {step}; " ++
        "it must define every predicate"

/-- Whether a configuration fits a system, with the warnings that come up. -/
def Configuration.validate (configuration : Configuration) (system : System) :
    List Event × Except CheckError Unit :=
  match configuration.obstacle? system with
  | some error => ([], .error (.configuration error))
  | none =>
      let (events, result) := configuration.warnings system configuration.processes
      (events, result.mapError .fault)

end Trivalent
