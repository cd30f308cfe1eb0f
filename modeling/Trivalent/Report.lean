import Trivalent.Feedback

/-!
# Reports

The answer of a check: what was found, and which paths of an abstract system were followed in the
concrete one on the way.
-/

namespace Trivalent

/-- A path of the abstract system that was followed in the concrete one. -/
structure Round where
  /-- The depth of the path. -/
  step : Nat
  /-- What was found in the concrete system. -/
  concrete : Verdict
  deriving DecidableEq, Repr

namespace Round

/-- A round as a JSON document. -/
def document (round : Round) : Json.Document :=
  .object [("k", .number round.step), ("concrete", .string round.concrete.name)]

/-- A round as a line of text. -/
def text (round : Round) : String :=
  s!"refinement: abstract witness at timestep {round.step} is {round.concrete.name} " ++
    "in the concrete model"

end Round

/-- The answer of a check. -/
structure Report where
  /-- What was found. -/
  feedback : Feedback
  /-- The paths of the abstract system that were followed. -/
  rounds : List Round

namespace Report

/-- A report as a JSON document. -/
def document (report : Report) : Json.Document :=
  .object [
    ("feedback", report.feedback.document),
    ("refinements", .array (report.rounds.map Round.document))]

/-- The lines of a report on a check that took so many nanoseconds: the rounds, the path to the
violation, and the banner below an empty line. -/
def lines (report : Report) (duration : Nat) : List String :=
  report.rounds.map Round.text ++ report.feedback.witness.map WitnessStep.text ++
    ["", report.feedback.banner duration]

end Report

end Trivalent
