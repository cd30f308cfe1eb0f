import Trivalent.Feedback
import Trivalent.Sat.Solver
import Trivalent.Search.Action
import Trivalent.Timing

/-!
# Searches

A search for violations depth by depth.  It holds the formulas of its run: the initial state, the
steps up to the depth that it has reached, and the conditions under which it was asked to search.
At each depth the property is asked for with unknown predicates read as either value, and only if
it can be violated then, with unknown predicates read as neither.

A search that ends, with an answer or with an error, may be continued from the depth it has reached.
Its surroundings watch the queries.
-/

namespace Trivalent

/-- A search with a solver whose states are of type `σ`. -/
structure Search (σ : Type) where
  /-- The state of the solver. -/
  solver : σ
  /-- The formulas of the run, in the order in which they came up. -/
  run : List Formula
  /-- The number of steps in the run. -/
  step : Nat

namespace Search

variable {m : Type → Type} [Monad m] {σ : Type}

/-- A search that has not begun. -/
def initial (solver : σ) : Search σ :=
  ⟨solver, [], 0⟩

/-! ## The run -/

/-- The number of steps in the run. -/
def reached : Action m (Search σ) Nat := do
  return (← Action.state).step

/-- Takes a formula into the run. -/
def push (f : Formula) : Action m (Search σ) Unit :=
  .modify fun search => { search with run := search.run ++ [f] }

variable (solver : Sat.Solver σ) (task : Task)

/-- Takes the initial state into the run, if it is to start at the beginning. -/
def begin (start : Nat) : Action m (Search σ) Unit := do
  if start = 0 then push (← .ofFault task.initial)

/-- Takes further steps into the run. -/
def extend : Nat → Action m (Search σ) Unit
  | 0 => return ()
  | steps + 1 => do
      push (← .ofFault (task.step (← reached)))
      .modify fun search => { search with step := search.step + 1 }
      extend steps

/-- Takes steps into the run until it has reached a depth. -/
def extendTo (depth : Nat) : Action m (Search σ) Unit := do
  extend task (depth - (← reached))

/-- A search starts from where it has come to. -/
def checkStart (start : Nat) : Action m (Search σ) Unit := do
  let step ← reached
  if start ≠ step then .fail (.fault (.startMismatch start step))

/-! ## Queries -/

variable [Watch m]

/-- How unknown predicates are read in a query. -/
def reading : Phase → Formula
  | .optimistic => .atom .wildcard
  | .definite => .neg (.atom .wildcard)

/-- Asks whether a property can hold at a depth, and for a valuation if it can.  An answer is
recorded. -/
def query (property : Formula) (depth : Nat) (phase : Phase) :
    Action m (Search σ) (Option Valuation) := fun search => do
  let start ← Watch.now
  match solver.solve (solver.load search.solver (search.run ++ [property, reading phase])) with
  | (.satisfiable v, state) =>
      Watch.record phase true start
      return ⟨.ok (some v), { search with solver := state }, [.answered depth phase true]⟩
  | (.unsatisfiable, state) =>
      Watch.record phase false start
      return ⟨.ok none, { search with solver := state }, [.answered depth phase false]⟩
  | (.failed, state) => return ⟨.error .solverFailed, { search with solver := state }, []⟩

/-- Where nothing is watched, a query is a call of the solver. -/
theorem query_eq (property : Formula) (depth : Nat) (phase : Phase) (search : Search σ) :
    query solver property depth phase search =
      match solver.solve
        (solver.load search.solver (search.run ++ [property, reading phase])) with
      | (.satisfiable v, state) =>
          ⟨.ok (some v), { search with solver := state }, [.answered depth phase true]⟩
      | (.unsatisfiable, state) =>
          ⟨.ok none, { search with solver := state }, [.answered depth phase false]⟩
      | (.failed, state) => ⟨.error .solverFailed, { search with solver := state }, []⟩ := by
  unfold query
  cases solver.solve _ with
  | mk answer state => cases answer <;> rfl

/-- Classifies a violation at a depth, if there is one. -/
def classify (property : Formula) (depth : Nat) : Action m (Search σ) (Option Feedback) := do
  match ← query solver property depth .optimistic with
  | none => return none
  | some v =>
      let witness ← .ofFault
        (Witness.decode task.system task.configuration.fairness v depth)
      let verdict :=
        match ← query solver property depth .definite with
        | some _ => Verdict.definite
        | none => Verdict.possible
      .log (.violation verdict depth)
      return some ⟨verdict, depth, witness⟩

/-! ## Searching -/

/-- Searches `count` depths from `depth` on. -/
def sweep : (count depth : Nat) → Action m (Search σ) Feedback
  | 0, _ => do
      .log (.exhausted task.configuration.bound)
      return .noneUpTo task.configuration.bound
  | count + 1, depth => do
      match ← classify solver task (← .ofFault (task.property depth)) depth with
      | some feedback => return feedback
      | none =>
          extendTo task (← .ofFault (Word.add depth 1))
          sweep count (depth + 1)

/-- Searches for a violation from a depth up to the bound, among the runs that satisfy a further
condition. -/
def evaluate (start : Nat) (condition : Formula) : Action m (Search σ) Feedback := do
  checkStart start
  push condition
  begin task start
  sweep solver task (task.configuration.bound + 1 - start) start

/-- Searches for a violation at one depth, among the runs that satisfy further constraints.  The
system is expected to know all its predicates, so that a violation that depends on unknown ones is
an error. -/
def evaluateAt (constraints : List Formula) (depth start : Nat) :
    Action m (Search σ) Feedback := do
  checkStart start
  if depth < start then .fail (.fault .cannotShrink)
  begin task start
  extendTo task depth
  let property ← .ofFault (task.property depth)
  match ← classify solver task (.conj (constraints ++ [property])) depth with
  | none => return .noneUpTo depth
  | some feedback =>
      if feedback.verdict = .possible then .fail (.uncertain depth) else return feedback

end Search

end Trivalent
