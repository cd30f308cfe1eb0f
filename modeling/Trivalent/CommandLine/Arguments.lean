import Trivalent.CommandLine.Switch
import Trivalent.Configuration

/-!
# Commands

What a command line asks for: to check a model, or to print it.
-/

namespace Trivalent.CommandLine

/-- When output is coloured. -/
inductive Colour where
  /-- Never. -/
  | never
  /-- If the terminal shows colours. -/
  | auto
  /-- Always. -/
  | always
  deriving DecidableEq, Repr

/-- A setting of a check. -/
inductive Setting where
  /-- The target location. -/
  | location (location : Nat)
  /-- The text that selects the processes under test. -/
  | processes (text : List Char)
  /-- One process at the target is enough. -/
  | any
  /-- The largest timestep of the search. -/
  | bound (bound : Nat)
  /-- Loops have to be fair. -/
  | fair
  /-- There is an abstract model. -/
  | refined
  /-- The file of the abstract model. -/
  | abstract (file : List Char)
  /-- The report is written as JSON. -/
  | json
  /-- Timing is reported. -/
  | time
  deriving DecidableEq, Repr

namespace Setting

/-- The target location that a setting gives. -/
def location? : Setting → Option Nat
  | .location target => some target
  | _ => none

/-- The selection of processes that a setting gives. -/
def processes? : Setting → Option (List Char)
  | .processes text => some text
  | _ => none

/-- The bound that a setting gives. -/
def bound? : Setting → Option Nat
  | .bound last => some last
  | _ => none

/-- The file that a setting gives. -/
def abstract? : Setting → Option (List Char)
  | .abstract file => some file
  | _ => none

end Setting

/-- What is asked for when a model is checked. -/
structure CheckRequest where
  /-- The kind of property. -/
  property : Property
  /-- The target location. -/
  location : Nat
  /-- The text that selects the processes under test. -/
  processes : String
  /-- Whether one process at the target is enough. -/
  any : Bool
  /-- The largest timestep of the search. -/
  bound : Nat
  /-- Whether loops have to be fair. -/
  fair : Bool
  /-- Whether there is an abstract model. -/
  refined : Bool
  /-- The file of the abstract model, if it is given. -/
  abstractFile : Option String
  /-- Whether the report is written as JSON. -/
  json : Bool
  /-- Whether timing is reported. -/
  time : Bool
  /-- The file of the model. -/
  file : String
  deriving Repr

/-- A command. -/
inductive Command where
  /-- Check a model. -/
  | check (request : CheckRequest)
  /-- Print a model. -/
  | print (file : String)
  deriving Repr

/-- A command, and when its output is coloured. -/
structure Invocation where
  /-- When output is coloured. -/
  colour : Colour
  /-- The command. -/
  command : Command
  deriving Repr

/-! ## Switches -/

/-- The setting of a numeral for a word. -/
def ofNumeral (setting : Nat → Setting) (text : List Char) : Option Setting :=
  (Numeral.word? text).map setting

/-- The switches of a check. -/
def checkSwitches : List (Switch Setting) :=
  [.valued "location" (some 'l') (ofNumeral .location),
    .valued "processes" (some 'p') fun text => some (.processes text),
    .flag "any" .any,
    .valued "bound" (some 'b') (ofNumeral .bound),
    .flag "fair" .fair,
    .flag "multi-model" .refined,
    .valued "abstract" none fun text => some (.abstract text),
    .flag "json" .json,
    .flag "time" .time]

/-- The colouring that a word stands for. -/
def Colour.ofWord (word : List Char) : Option Colour :=
  if word = "never".toList then some .never
  else if word = "auto".toList then some .auto
  else if word = "always".toList then some .always
  else none

/-- The switches before the command. -/
def commonSwitches : List (Switch Colour) :=
  [.valued "color" none Colour.ofWord]

/-! ## Reading -/

/-- Reads the arguments of a command that takes one file. -/
def readFile {α : Type} (switches : List (Switch α)) (arguments : List (List Char)) :
    Except Stop (Reading α × String) := do
  let (reading, _) ←
    Reading.empty.readUntil switches (fun reading => 1 < reading.words.length) arguments
  match reading.words with
  | [file] => return (reading, String.ofList file)
  | _ => throw .rejected

/-- Reads the arguments of a check.  A location has to be given; all processes are under test and
the bound is ten unless it is said otherwise.  To name the abstract model is to ask for it. -/
def readCheck (property : Property) (arguments : List (List Char)) :
    Except Stop CheckRequest := do
  let (reading, file) ← readFile checkSwitches arguments
  let given := fun setting => (reading.settings.map (·.2)).contains setting
  let abstractFile := (reading.find? Setting.abstract?).map String.ofList
  match reading.find? Setting.location? with
  | none => throw .rejected
  | some location =>
      return {
        property
        location
        processes := ((reading.find? Setting.processes?).map String.ofList).getD "all"
        any := given .any
        bound := (reading.find? Setting.bound?).getD 10
        fair := given .fair
        refined := given .refined || abstractFile.isSome
        abstractFile
        json := given .json
        time := given .time
        file }

/-- What is said about a request for help on a command: only commands have help. -/
def helpOn : List (List Char) → Stop
  | [] => .help
  | [command] =>
      if ["reachability", "liveness", "print", "help"].contains (String.ofList command) then .help
      else .rejected
  | _ => .rejected

/-- Reads a command and its arguments. -/
def readCommand (command : String) (arguments : List (List Char)) : Except Stop Command :=
  if command = "reachability" then (readCheck .reachability arguments).map .check
  else if command = "liveness" then (readCheck .liveness arguments).map .check
  else if command = "print" then
    (readFile ([] : List (Switch Setting)) arguments).map fun read => .print read.2
  else if command = "help" then .error (helpOn arguments)
  else .error .rejected

/-- Reads a command line. -/
def Invocation.read (arguments : List String) : Except Stop Invocation := do
  let (reading, rest) ←
    Reading.empty.readUntil commonSwitches
      (fun reading => reading.ended || !reading.words.isEmpty) (arguments.map String.toList)
  match reading.words with
  | [command] =>
      let command ← readCommand (String.ofList command) rest
      return ⟨(reading.find? some).getD .auto, command⟩
  | _ => throw .rejected

end Trivalent.CommandLine
