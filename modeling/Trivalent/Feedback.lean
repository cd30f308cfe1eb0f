import Trivalent.Witness

/-!
# Feedback

What a search found, as a JSON document and as a banner.
-/

namespace Trivalent

/-- What a search found. -/
structure Feedback where
  /-- How the violation is classified. -/
  verdict : Verdict
  /-- The timestep of the violation, or the last one that was searched if there is none. -/
  step : Nat
  /-- The path to the violation. -/
  witness : List WitnessStep

namespace Feedback

/-- There is no violation up to a bound. -/
def noneUpTo (bound : Nat) : Feedback :=
  ⟨.noneFound, bound, []⟩

/-- Feedback as a JSON document. -/
def document (feedback : Feedback) : Json.Document :=
  .object [
    ("verdict", .string feedback.verdict.name),
    ("k", .number feedback.step),
    ("witness", .array (feedback.witness.map WitnessStep.document))]

/-- A duration of so many nanoseconds, in seconds and in milliseconds, both rounded down. -/
def durationText (duration : Nat) : String :=
  s!"{duration / 1000000000}s  ({duration / 1000000}ms)"

/-- The rule above and below a violation. -/
def rule : String :=
  String.ofList (List.replicate 70 '_')

/-- The banner of a final answer that took so many nanoseconds. -/
def banner (feedback : Feedback) (duration : Nat) : String :=
  let framed := fun (title : String) =>
    rule ++ "\n\n  " ++ title ++ s!": {feedback.step}\n  Time elapsed since start: " ++
      durationText duration ++ "\n" ++ rule
  match feedback.verdict with
  | .definite => framed "SATISFIABLE at timestep"
  | .possible => framed "UNKNOWN after timestep"
  | .noneFound =>
      s!"No error found for bound of {feedback.step}\nTotal time: " ++ durationText duration

end Feedback

end Trivalent
