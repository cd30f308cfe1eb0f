import Trivalent.Report
import Trivalent.Search.Basic

/-!
# Refinement

An abstract system is searched first.  A definite violation of it, or none, is the answer.  The path
to a possible violation is followed in the concrete system: if there is a violation on it, that is
the answer, and otherwise the path is excluded and the search goes on at the same depth.

Rounds follow one another until there is an answer.  Nothing counts them: that they come to an end
rests on the exclusion of paths.
-/

namespace Trivalent

/-- The searches of the two systems. -/
structure Refinement (σ : Type) where
  /-- The search of the abstract system. -/
  abstract : Search σ
  /-- The search of the concrete system. -/
  concrete : Search σ

namespace Refinement

variable {m : Type → Type} [Monad m] {σ : Type}

/-- An action on the search of the abstract system. -/
def onAbstract {α : Type} (action : Action m (Search σ) α) : Action m (Refinement σ) α :=
  action.onPart (·.abstract) fun searches abstract => { searches with abstract }

/-- An action on the search of the concrete system. -/
def onConcrete {α : Type} (action : Action m (Search σ) α) : Action m (Refinement σ) α :=
  action.onPart (·.concrete) fun searches concrete => { searches with concrete }

variable (solver : Sat.Solver σ) (abstract concrete : Task)

variable [Watch m]

/-- Follows the path of the abstract system in the concrete one. -/
def replay (feedback : Feedback) (start : Nat) : Action m (Refinement σ) Feedback := do
  let path ← .ofFault (Witness.formula concrete.system feedback.witness)
  let answer ← onConcrete (Search.evaluateAt solver concrete [path] feedback.step start)
  .log (.replayed feedback.step answer.verdict)
  return answer

/-- Where a round begins. -/
structure Stage where
  /-- The depth that the searches have come to. -/
  depth : Nat
  /-- The condition under which the search of the abstract system goes on. -/
  condition : Formula
  /-- The rounds so far. -/
  rounds : List Round

/-- A round: it has the answer, or the path that it excludes is the condition of the next one. -/
def round (stage : Stage) : Action m (Refinement σ) (Stage ⊕ Report) := do
  let feedback ← onAbstract (Search.evaluate solver abstract stage.depth stage.condition)
  if feedback.verdict ≠ .possible then return .inr ⟨feedback, stage.rounds⟩
  else
    let answer ← replay solver concrete feedback stage.depth
    let rounds := stage.rounds ++ [⟨feedback.step, answer.verdict⟩]
    if answer.verdict = .definite then return .inr ⟨answer, rounds⟩
    else
      let path ← .ofFault (Witness.formula abstract.system feedback.witness)
      return .inl ⟨feedback.step, path.neg, rounds⟩

/-- The first round begins at the beginning, without a condition. -/
def Stage.first : Stage :=
  ⟨0, .constant true, []⟩

variable {n : Type → Type} [Monad n] [Loops m n]

/-- Checks the abstract system against the concrete one.  The configuration has to fit the abstract
system too. -/
def refine : Action n (Refinement σ) Report := do
  .ofLogged (abstract.configuration.validate abstract.system)
  .repeatUntil (round (m := m) solver abstract concrete) .first

end Refinement

/-! ## Checks -/

section Checks

variable {m n : Type → Type} [Monad m] [Watch m] [Monad n] [Loops m n] {σ : Type}

/-- Checks a system. -/
def checkAlone (solver : Sat.Solver σ) (task : Task) : Action m (Search σ) Report := do
  let feedback ← Search.evaluate solver task 0 (.constant true)
  return ⟨feedback, []⟩

/-- What a check works on: the tasks of the systems, and what happened when these were encoded. -/
structure Preparation where
  /-- The task of the abstract system, if there is one. -/
  abstract : Option Task
  /-- The task of the system. -/
  concrete : Task
  /-- What happened, in order. -/
  events : List Event

/-- Encodes the systems of a check, the abstract one first. -/
def prepare (system : System) (abstract : Option System) (configuration : Configuration) :
    Except Fault Preparation := do
  match abstract with
  | none =>
      let (encoded, task) := Task.build system configuration
      return ⟨none, ← task, encoded⟩
  | some abstract =>
      let (encoded, abstractTask) := Task.build abstract configuration
      let abstractTask ← abstractTask
      let (encodedToo, task) := Task.build system configuration
      return ⟨some abstractTask, ← task, encoded ++ encodedToo⟩

/-- Checks a system, by way of an abstract one if it is given.  Every search has a solver of its
own, which starts in the state `start`.  A fault in encoding the systems comes before all else. -/
def check (solver : Sat.Solver σ) (start : σ) (system : System) (abstract : Option System)
    (configuration : Configuration) : n (Except Fault (List Event × Except CheckError Report)) :=
  match prepare system abstract configuration with
  | .error fault => return .error fault
  | .ok ⟨none, task, encoded⟩ => do
      let outcome ← Loops.once (checkAlone (m := m) solver task (.initial start))
      return .ok (encoded ++ outcome.events, outcome.result)
  | .ok ⟨some abstractTask, task, encoded⟩ => do
      let outcome ← Refinement.refine (m := m) solver abstractTask task
        ⟨.initial start, .initial start⟩
      return .ok (encoded ++ outcome.events, outcome.result)

end Checks

end Trivalent
