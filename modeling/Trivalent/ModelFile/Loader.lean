import Trivalent.Expr.Parser
import Trivalent.ModelFile.Layout
import Trivalent.System.Basic

/-!
# Loading models

A system from the text of a model file: its layout is read, its numbers and names are checked, and
its expressions are read.  The first failure in the order of the file is reported, but failures of
the tables of predicates come before those of transitions.
-/

namespace Trivalent.ModelFile

/-- Why a model cannot be loaded. -/
inductive LoadError where
  /-- The file at a path cannot be read. -/
  | unreadable (path reason : String)
  /-- The text is not the JSON of a model. -/
  | malformed (message : String)
  /-- An expression of a process cannot be read. -/
  | badExpression (process : Nat) (text : List Char) (failure : Grammar.Failure)
  /-- Two predicates have the same number. -/
  | duplicatePredicate (id : Nat)
  /-- A process refers to a predicate that the model lacks. -/
  | unknownPredicate (process id : Nat)
  /-- An initial value is given for a predicate that the model lacks. -/
  | unknownInitial (name : String)

/-- The wording of a failure to load. -/
def LoadError.message : LoadError → String
  | .unreadable path reason => "could not read " ++ path ++ ": " ++ reason
  | .malformed message => "malformed model file: " ++ message
  | .badExpression process text failure =>
      s!"process {process}: could not parse \x60" ++ String.ofList text ++ "\x60: " ++
        failure.message
  | .duplicatePredicate id => s!"predicate id {id} is used by more than one predicate"
  | .unknownPredicate process id => s!"process {process} refers to unknown predicate id {id}"
  | .unknownInitial name => s!"initial value given for unknown predicate {name}"

/-- The first entry that occurs before, if there is one. -/
def firstRepeated (seen : List Nat) : List Nat → Option Nat
  | [] => none
  | id :: rest => if seen.contains id then some id else firstRepeated (id :: seen) rest

/-- The term of a text; it may refer to predicates of the model only. -/
def termOfText (names : NameTable Nat) (process : Nat) (text : List Char) :
    Except LoadError Term := do
  match Term.parse names text with
  | .error failure => throw (.badExpression process text failure)
  | .ok term =>
      match term.predicates.find? fun id => !names.values.contains id with
      | some id => throw (.unknownPredicate process id)
      | none => return term

/-- The update of a text. -/
def assignmentOfText (names : NameTable Nat) (process : Nat) (text : AssignmentText) :
    Except LoadError Assignment := do
  if !names.values.contains text.predicate then throw (.unknownPredicate process text.predicate)
  return ⟨text.predicate, ← termOfText names process text.value⟩

/-- The transition of a text; a guard that is not given always holds. -/
def transitionOfText (names : NameTable Nat) (process : Nat) (text : TransitionText) :
    Except LoadError Transition := do
  let guard ←
    match text.guard with
    | none => pure Term.always
    | some guard => termOfText names process guard
  let assignments ← text.assignments.mapM (assignmentOfText names process)
  return ⟨text.source, text.destination, guard, assignments⟩

/-- The process of a text. -/
def processOfText (names : NameTable Nat) (text : List TransitionText) (id : Nat) :
    Except LoadError Process := do
  return ⟨id, ← text.mapM (transitionOfText names id)⟩

/-- The system of a text. -/
def systemOfText (text : ModelText) : Except LoadError System := do
  let predicates := NameTable.ofList text.predicates
  let initial := NameTable.ofList text.initial
  if let some id := firstRepeated [] predicates.values then throw (.duplicatePredicate id)
  if let some name := initial.names.find? fun name => !predicates.contains name then
    throw (.unknownInitial name)
  let processes ← text.processes.zipIdx.mapM fun (process, id) =>
    processOfText predicates process id
  return ⟨predicates, initial, processes⟩

/-- Loads a system from the text of a model file. -/
def load (text : String) : Except LoadError System :=
  match layout text.toList with
  | .error problem => .error (.malformed (problem.message text.toList))
  | .ok model => systemOfText model

end Trivalent.ModelFile
