import Trivalent.Expr.Parser
import Trivalent.System.Basic

/-!
# Printed systems

A system as text, with predicates by name.  A name is used where it reads back as a reference: when
it is an identifier or stands in parentheses.  Other predicates are referred to by number.
-/

namespace Trivalent.System

/-- Whether a name begins with an opening and ends with a closing parenthesis. -/
def isParenthesised (name : List Char) : Bool :=
  name.head? == some '(' && name.getLast? == some ')'

/-- How a predicate is referred to. -/
def reference (system : System) (id : Nat) : List Char :=
  match system.predicateName? id with
  | some name =>
      if Expr.isIdentifier name.toList || isParenthesised name.toList then name.toList
      else Numeral.digits id
  | none => Numeral.digits id

/-- The text of an expression of the system. -/
def exprText (system : System) (e : Expr) : String :=
  String.ofList (e.write system.reference)

/-- The text of a term of the system. -/
def termText (system : System) (term : Term) : String :=
  String.ofList (term.write system.reference)

/-- The text of an update. -/
def assignmentText (system : System) (assignment : Assignment) : String :=
  String.ofList (system.reference assignment.predicate) ++ " := " ++
    system.termText assignment.value

/-- The text of a transition: its locations, its guard unless it always holds, and its updates if
there are any. -/
def transitionText (system : System) (transition : Transition) : String :=
  let guard :=
    if transition.guard.isAlways then "" else " when " ++ system.termText transition.guard
  let updates :=
    if transition.assignments.isEmpty then ""
    else " do " ++ ", ".intercalate (transition.assignments.map system.assignmentText)
  s!"{transition.source} -> {transition.destination}" ++ guard ++ updates

/-- The lines of a process. -/
def processLines (system : System) (process : Process) : Except Fault (List String) := do
  let count ← process.locationCount
  let title := s!"process {process.id} ({count} locations, {Word.bitsFor count} bits):"
  return title :: process.transitions.map fun t => "  " ++ system.transitionText t

/-- The line of a predicate. -/
def predicateLine (system : System) (id : Nat) (name : String) : String :=
  s!"  {id}: {name} (initially {system.initialValue name})"

/-- The text of a system. -/
def text (system : System) : Except Fault String := do
  let processes ← system.processes.mapM system.processLines
  let predicates := system.predicatesById.map fun (id, name) => system.predicateLine id name
  return "\n".intercalate ("predicates:" :: predicates ++ processes.flatten)

end Trivalent.System
