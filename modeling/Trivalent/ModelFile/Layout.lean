import Trivalent.Json.Skip
import Trivalent.Json.Value

/-!
# Layout of model files

What a model file says before its expressions are read.  A model has predicates, optional initial
values and processes; a process is a list of transitions, an object with transitions, or an object
with states that have transitions.  Models, states, transitions and updates may be given as arrays
of their fields; unknown fields are ignored.
-/

namespace Trivalent.ModelFile

open Json (Reader Value)
open Json.Reader

/-- An update as it is written. -/
structure AssignmentText where
  /-- The predicate that changes. -/
  predicate : Nat
  /-- The term. -/
  value : List Char
  deriving DecidableEq, Repr

/-- A transition as it is written. -/
structure TransitionText where
  /-- The location the edge leaves. -/
  source : Nat
  /-- The location the edge enters. -/
  destination : Nat
  /-- The guard, if one is given. -/
  guard : Option (List Char)
  /-- The updates. -/
  assignments : List AssignmentText
  deriving DecidableEq, Repr

/-- A model as it is written. -/
structure ModelText where
  /-- The numbers of predicates by name, of which later ones win. -/
  predicates : List (String × Nat)
  /-- Initial values by name, of which later ones win. -/
  initial : List (String × Bool)
  /-- The transitions of the processes. -/
  processes : List (List TransitionText)

/-! ## Values of known kinds -/

/-- A number that is a word. -/
def word? : Value → Option Nat
  | .number (.word n) => some n
  | _ => none

/-- A string. -/
def string? : Value → Option (List Char)
  | .string text => some text
  | _ => none

/-- An array whose elements are all of one kind. -/
def array? {α : Type} (element : Value → Option α) : Value → Option (List α)
  | .array elements => elements.mapM element
  | _ => none

/-- The value of a field of an object that may have several spellings; none of them may be
repeated. -/
def field? (spellings : List String) (entries : List (List Char × Value)) :
    Option (Option Value) :=
  match entries.filter fun entry => spellings.contains (String.ofList entry.1) with
  | [] => some none
  | [entry] => some (some entry.2)
  | _ => none

/-- The values of the fields of a structure, by name in an object and by position in an array. -/
def fields? (names : List (List String)) : Value → Option (List (Option Value))
  | .object entries => names.mapM fun spellings => field? spellings entries
  | .array elements =>
      if names.length < elements.length then none
      else some ((List.range names.length).map fun place => elements[place]?)
  | _ => none

/-! ## Transitions and processes -/

/-- An update: its predicate and its term. -/
def AssignmentText.ofValue? (v : Value) : Option AssignmentText := do
  match ← fields? [["predicate"], ["RHS", "rhs"]] v with
  | [some predicate, some value] => return ⟨← word? predicate, ← string? value⟩
  | _ => none

/-- A guard, which may be null. -/
def guard? : Option Value → Option (Option (List Char))
  | none => some none
  | some .null => some none
  | some v => (string? v).map some

/-- Values of a field that may be missing: none, then. -/
def optionalArray? {α : Type} (element : Value → Option α) : Option Value → Option (List α)
  | none => some []
  | some v => array? element v

/-- A transition: its locations, and its guard and its updates if there are any. -/
def TransitionText.ofValue? (v : Value) : Option TransitionText := do
  match ← fields? [["source"], ["destination"], ["guard"], ["assignments"]] v with
  | [some source, some destination, guard, assignments] =>
      return ⟨← word? source, ← word? destination, ← guard? guard,
        ← optionalArray? AssignmentText.ofValue? assignments⟩
  | _ => none

/-- The transitions of a state, if there are any. -/
def state? (v : Value) : Option (List TransitionText) := do
  match ← fields? [["transitions"]] v with
  | [transitions] => optionalArray? TransitionText.ofValue? transitions
  | _ => none

/-- The field of an object that has to be there. -/
def member? (name : String) : Value → Option Value
  | .object entries => (field? [name] entries).join
  | _ => none

/-- The transitions of a process given by states. -/
def ofStates? (v : Value) : Option (List TransitionText) := do
  let states ← array? state? (← member? "states" v)
  return states.flatten

/-- The transitions of a process given as a field. -/
def ofTransitions? (v : Value) : Option (List TransitionText) := do
  array? TransitionText.ofValue? (← member? "transitions" v)

/-- The transitions of a process: the first of the three layouts that fits wins. -/
def process? (v : Value) : Option (List TransitionText) :=
  ofStates? v <|> ofTransitions? v <|> array? TransitionText.ofValue? v

/-! ## Models -/

/-- The numbers of predicates by name. -/
def readPredicates (room : Nat) : Reader (List (String × Nat)) :=
  table room fun _ => word

/-- Initial values by name. -/
def readInitial (room : Nat) : Reader (List (String × Bool)) :=
  table room fun _ => boolean

/-- The transitions of a process, whose layout is told by its whole value. -/
def readProcess (room : Nat) : Reader (List TransitionText) := do
  match process? (← value room) with
  | some transitions => return transitions
  | none => complain (.noLayout "RawProcess")

/-- The transitions of the processes. -/
def readProcesses (room : Nat) : Reader (List (List TransitionText)) :=
  list room readProcess

/-- The name under which problems speak of a model. -/
def modelName : String :=
  "RawModel"

/-- Fails for an array that ends after `length` of the three fields of a model. -/
def endsAfter {α : Type} (length : Nat) : Reader α :=
  complain (.tooShort length modelName 3)

/-- A model as an array of its fields, of which the initial values may be missing at the end. -/
def readArray (room : Nat) : Reader ModelText := do
  let predicates ← if ← nextElement true then readPredicates room else endsAfter 0
  let initial ← if ← nextElement false then readInitial room else pure []
  let processes ← if ← nextElement false then readProcesses room else endsAfter 2
  return { predicates, initial, processes }

/-- The fields of a model that were read. -/
structure Fields where
  /-- The predicates. -/
  predicates : Option (List (String × Nat))
  /-- The initial values. -/
  initial : Option (List (String × Bool))
  /-- The processes. -/
  processes : Option (List (List TransitionText))

/-- The value of a field that has not been read before. -/
def readOnce {α : Type} (name : String) (before : Option α) (read : Reader α) : Reader α :=
  if before.isSome then complain (.duplicateField name) else valueOf read

/-- An entry of a model. -/
def readField (room : Nat) (fields : Fields) (key : List Char) : Reader Fields := do
  let name := String.ofList key
  if name = "predicates" then
    let predicates ← readOnce name fields.predicates (readPredicates room)
    return { fields with predicates }
  else if name = "init" then
    let initial ← readOnce name fields.initial (readInitial room)
    return { fields with initial }
  else if name = "processes" then
    let processes ← readOnce name fields.processes (readProcesses room)
    return { fields with processes }
  else
    valueOf skipValue
    return fields

/-- A model as an object. -/
def readObject (room : Nat) : Reader ModelText := do
  let fields ← entries (readField room) ((← get).length + 1) true ⟨none, none, none⟩
  match fields.predicates, fields.processes with
  | none, _ => complain (.missingField "predicates")
  | _, none => complain (.missingField "processes")
  | some predicates, some processes =>
      return { predicates, initial := fields.initial.getD [], processes }

/-- A model. -/
def readModel : Reader ModelText := do
  match ← peekPastBlanks with
  | none => failHere .endBeforeValue
  | some '[' => nested nestingLimit readArray closeArray
  | some '{' => nested nestingLimit readObject closeObject
  | some _ => mismatch (.structure modelName)

/-- Reads the layout of a model file. -/
def layout (text : List Char) : Except Json.Problem ModelText := do
  let read : Reader ModelText := do
    let model ← readModel
    atEnd
    return model
  return (← read text).1

end Trivalent.ModelFile
