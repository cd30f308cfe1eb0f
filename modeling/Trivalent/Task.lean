import Trivalent.Configuration
import Trivalent.Encoding.Template

/-!
# Checking tasks

The formulas of a task for every timestep: the initial state, the steps and the property.

A loop is found by recording a state.  At some step the state is recorded (`record`) into the shadow
of the tracked atoms, where it stays; the property holds at a step when a state has been recorded
(`recorded`), the state of the step equals its shadow and the target was not met since
(`progress`).  With fairness every process must have moved since the recording (`fair`).
-/

namespace Trivalent

/-- A system, what is checked of it, and its encoded transitions and states. -/
structure Task where
  /-- The system. -/
  system : System
  /-- What is checked. -/
  configuration : Configuration
  /-- The transitions. -/
  templates : List Encoding.Template
  /-- The atoms of a state. -/
  tracked : List Atom

namespace Task

open Encoding (locationFormula statusFormula)

/-- The formulas of a list up to the first one that is false; those behind it are not asked for. -/
def untilFalse : List (Except Fault Formula) → Except Fault (List Formula)
  | [] => .ok []
  | first :: rest => do
      let f ← first
      if f.isFalse then return [f] else return f :: (← untilFalse rest)

/-- The task of checking a system, with what comes up while it is encoded. -/
def build (system : System) (configuration : Configuration) :
    List Event × Except Fault Task :=
  match Encoding.templates system with
  | .error fault => ([], .error fault)
  | .ok templates =>
      ([.encoded templates.length], do
        let tracked ← Encoding.trackedAtoms system
        return { system, configuration, templates, tracked })

/-! ## The initial state -/

/-- The initial state of a process: it is at location 0, and so is its shadow where loops are
searched for; where they have to be fair it has not moved. -/
def initialProcess (task : Task) (process : Nat) : Except Fault (List Formula) := do
  let here ← Encoding.location task.system process 0 0 false
  if task.configuration.isLiveness then
    let shadow ← Encoding.location task.system process 0 0 true
    let still := if task.configuration.isFair then [Formula.neg (.atom (.fair process 0))] else []
    return here :: shadow :: still
  else return [here]

/-- The initial state of a predicate. -/
def initialPredicate (task : Task) (id : Nat) (name : String) : List Formula :=
  let status := task.system.initialStatus name
  statusFormula id status 0 false ::
    (if task.configuration.isLiveness then [statusFormula id status 0 true] else [])

/-- The initial state at step 0. -/
def initial (task : Task) : Except Fault Formula := do
  let processes ← task.system.processes.mapM fun p => task.initialProcess p.id
  let predicates := task.system.predicatesById.flatMap fun (id, name) =>
    task.initialPredicate id name
  let registers :=
    if task.configuration.isLiveness then
      [Formula.neg (.atom (.recorded 0)), Formula.neg (.atom (.progress 0))]
    else []
  return .conj (processes.flatten ++ predicates ++ registers)

/-! ## The target -/

/-- The processes under test are at the target at a step. -/
def target (task : Task) (step : Nat) : Except Fault Formula := do
  let places := task.configuration.processes.map fun process =>
    Encoding.location task.system process task.configuration.location step false
  match task.configuration.combinator with
  | .all => return .conj (← untilFalse places)
  | .any => return .disj (← places.mapM id)

/-! ## Recording a state -/

/-- The state is recorded at a step: it is to be, and none has been before. -/
def recordingNow (step : Nat) : Formula :=
  .conj [.atom (.record step), .neg (.atom (.recorded step))]

/-- The state is recorded at a step or has been before. -/
def recordingSoFar (step : Nat) : Formula :=
  .disj [.atom (.record step), .atom (.recorded step)]

/-- The shadow of an atom at the next step is the atom if the state is recorded now, and stays what
it is otherwise. -/
def shadowStep (step : Nat) (tracked : Atom) : Formula :=
  let now := tracked.shift step
  .iff (.atom (now.shadowed.shift 1))
    (.conj [
      .implies (recordingNow step) (.atom now),
      .implies (.neg (recordingNow step)) (.atom now.shadowed)])

/-- The registers of a recording from a step to the next one. -/
def recording (task : Task) (step : Nat) : Except Fault Formula := do
  let after ← Word.add step 1
  let target ← task.target step
  return .conj (
    [Formula.iff (.atom (.recorded after)) (recordingSoFar step)] ++
    task.tracked.map (shadowStep step) ++
    [.iff (.atom (.progress after))
      (.disj [.atom (.progress step), .conj [recordingSoFar step, target]])])

/-- The movements since the recording when `parent` moves at a step. -/
def movements (task : Task) (parent step after : Nat) : Formula :=
  .conj (task.system.processes.map fun p =>
    if p.id = parent then
      .iff (.atom (.fair p.id after)) (.disj [.atom (.record step), .atom (.recorded step)])
    else .iff (.atom (.fair p.id after)) (.atom (.fair p.id step)))

/-! ## Steps and the property -/

/-- A transition taken at a step. -/
def move (task : Task) (step : Nat) (template : Encoding.Template) : Except Fault Formula := do
  let taken ← template.instantiate step
  if task.configuration.isFair then
    let after ← Word.add step 1
    return .conj [taken, task.movements template.parent step after]
  else return taken

/-- Some transition is taken at a step, and the registers follow. -/
def step (task : Task) (step : Nat) : Except Fault Formula := do
  let moves ← task.templates.mapM (task.move step)
  if task.configuration.isLiveness then
    return .conj [.disj moves, ← task.recording step]
  else return .disj moves

/-- The state of a step is the recorded one, and was left without meeting the target. -/
def loop (task : Task) (step : Nat) : Formula :=
  .conj (
    [Formula.atom (.recorded step)] ++
    task.tracked.map (fun tracked =>
      let now := tracked.shift step
      .iff (.atom now) (.atom now.shadowed)) ++
    [Formula.neg (.atom (.progress step))] ++
    (if task.configuration.fairness then
      task.system.processes.map fun p => .atom (.fair p.id step) else []))

/-- The property is violated at a step. -/
def property (task : Task) (step : Nat) : Except Fault Formula :=
  match task.configuration.property with
  | .reachability => task.target step
  | .liveness => .ok (task.loop step)

end Task

end Trivalent
