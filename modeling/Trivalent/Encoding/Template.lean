import Trivalent.Encoding.Term

/-!
# Transitions as formulas

Every transition of a system is written once, between two symbolic steps, and moved to the steps
where it is taken.  What a transition does not touch stays as it is: the predicates that it does not
update and the other processes.
-/

namespace Trivalent.Encoding

/-- A predicate keeps its status. -/
def keepsStatus (predicate : Nat) : Formula :=
  .disj ([Status.yes, .no, .unknown].map fun status =>
    .conj [statusFormula predicate status current false, statusFormula predicate status next false])

/-- Every predicate of a system outside `modified` keeps its status. -/
def frame (system : System) (modified : List Nat) : Formula :=
  .conj ((system.predicateIds.filter fun id => !modified.contains id).map keepsStatus)

/-- A process with locations of `width` bits keeps its location. -/
def keepsLocation (width process : Nat) : List Formula :=
  (List.range width).map fun bit =>
    .iff (.atom (.location process bit current false)) (.atom (.location process bit next false))

/-- Every process other than `active` keeps its location. -/
def idle (system : System) (active : Nat) : Except Fault Formula := do
  let others ← (system.processes.filter fun p => p.id != active).mapM fun p => do
    return keepsLocation (← p.widthWord) p.id
  return .conj others.flatten

/-- The guard and the updates of a transition, and what it leaves alone. -/
def operation (system : System) (transition : Transition) : Formula :=
  .conj ([guard transition.guard current] ++ transition.assignments.map update ++
    [frame system (transition.assignments.map (·.predicate))])

/-- A transition between two symbolic steps. -/
structure Template where
  /-- The process that moves. -/
  parent : Nat
  /-- The process is at the source. -/
  old : Formula
  /-- The guard holds, the updates are made, and other predicates keep their statuses. -/
  operation : Formula
  /-- The process is at the destination. -/
  new : Formula
  /-- The other processes keep their locations. -/
  idle : Formula

namespace Template

/-- The whole template. -/
def formula (template : Template) : Formula :=
  .conj [template.old, template.operation, template.new, template.idle]

/-- The transition from a step to the next one. -/
def instantiate (template : Template) (step : Nat) : Except Fault Formula :=
  template.formula.shiftWord step

end Template

/-- A transition of a process as a template. -/
def template (system : System) (process : Nat) (transition : Transition) :
    Except Fault Template := do
  let old ← location system process transition.source current false
  let operation := operation system transition
  let new ← location system process transition.destination next false
  let idle ← idle system process
  return { parent := process, old, operation, new, idle }

/-- The transitions of a process as templates. -/
def processTemplates (system : System) (process : Process) : Except Fault (List Template) :=
  process.transitions.mapM (template system process.id)

/-- The transitions of a system as templates. -/
def templates (system : System) : Except Fault (List Template) := do
  return (← system.processes.mapM (processTemplates system)).flatten

/-- The atoms of a predicate that make up its part of a state. -/
def predicateAtoms (predicate : Nat) : List Atom :=
  [.predicate predicate .unknown current false, .predicate predicate .truth current false]

/-- The atoms of a process that make up its part of a state. -/
def locationAtoms (width process : Nat) : List Atom :=
  (List.range width).map fun bit => .location process bit current false

/-- The atoms that make up a state: those of the predicates and then those of the processes. -/
def trackedAtoms (system : System) : Except Fault (List Atom) := do
  let locations ← system.processes.mapM fun p => do
    return locationAtoms (← p.widthWord) p.id
  return system.predicateIds.flatMap predicateAtoms ++ locations.flatten

end Trivalent.Encoding
