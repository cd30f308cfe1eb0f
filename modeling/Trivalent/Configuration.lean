import Trivalent.Event
import Trivalent.System.Basic
import Trivalent.Text.Blank
import Trivalent.Text.Numeral
import Trivalent.Text.Split

/-!
# Configurations

What is checked of a system: the property, the target location, the processes under test and how
their positions are combined, and how far to search.
-/

namespace Trivalent

/-- The kind of a property. -/
inductive Property where
  /-- The target is met. -/
  | reachability
  /-- There is a loop in which the target is not met. -/
  | liveness
  deriving DecidableEq, Repr

/-- The name of a kind of property. -/
def Property.name : Property → String
  | .reachability => "Reachability"
  | .liveness => "Liveness"

/-- How the positions of several processes are combined. -/
inductive Combinator where
  /-- All of them are at the target. -/
  | all
  /-- Some of them is at the target. -/
  | any
  deriving DecidableEq, Repr

/-- The name of a combinator. -/
def Combinator.name : Combinator → String
  | .all => "All"
  | .any => "Any"

/-- The sign of a combinator. -/
def Combinator.symbol : Combinator → String
  | .all => "&"
  | .any => "|"

/-- Processes under test, as they are selected. -/
inductive Selection where
  /-- All processes of the system. -/
  | all
  /-- Exactly these processes. -/
  | listed (processes : List Nat)
  deriving DecidableEq, Repr

/-- Why a configuration is refused. -/
inductive ConfigurationError where
  /-- No process is under test. -/
  | emptyProcessList
  /-- A process under test is not among the `count` processes of the system. -/
  | unknownProcess (process count : Nat)
  /-- A text selects no processes. -/
  | badProcessList (text : String)
  /-- A text names no combinator. -/
  | badCombinator (text : String)
  deriving DecidableEq, Repr

/-- The wording of a refusal. -/
def ConfigurationError.message : ConfigurationError → String
  | .emptyProcessList => "the list of processes under test is empty"
  | .unknownProcess process count =>
      s!"process {process} does not exist (the model has {count} processes)"
  | .badProcessList text => "could not parse process list \x60" ++ text ++ "\x60"
  | .badCombinator text => "unknown combinator \x60" ++ text ++ "\x60 (expected & or |)"

/-- Reads a combinator, by its sign or by a word. -/
def Combinator.parse (text : String) : Except ConfigurationError Combinator :=
  let word := String.ofList (Text.trim text.toList)
  if ["&", "and", "all"].contains word then .ok .all
  else if ["|", "or", "any"].contains word then .ok .any
  else .error (.badCombinator text)

namespace Selection

/-- A text without the parentheses around it, if it has both. -/
def withoutParentheses : List Char → List Char
  | '(' :: rest => if rest.getLast? == some ')' then rest.dropLast else '(' :: rest
  | text => text

/-- Reads a selection: `a` or `all`, or process numbers separated by commas, which may stand in
parentheses. -/
def parse (text : String) : Except ConfigurationError Selection :=
  let trimmed := Text.trim text.toList
  if trimmed = ['a'] ∨ trimmed = ['a', 'l', 'l'] then .ok .all
  else
    let parts := Text.splitAt ',' (withoutParentheses trimmed)
    match parts.mapM fun part => Numeral.word? (Text.trim part) with
    | some processes => .ok (.listed processes)
    | none => .error (.badProcessList text)

/-- The processes that are selected in a system. -/
def resolve (selection : Selection) (system : System) : List Nat :=
  match selection with
  | .all => List.range system.processes.length
  | .listed processes => processes

end Selection

/-- What is checked of a system. -/
structure Configuration where
  /-- The kind of property. -/
  property : Property
  /-- The target location. -/
  location : Nat
  /-- The processes under test. -/
  processes : List Nat
  /-- How their positions are combined. -/
  combinator : Combinator
  /-- The largest timestep of the search. -/
  bound : Nat
  /-- Whether every process has to move in a loop. -/
  fairness : Bool
  /-- Whether an abstract system is refined against a concrete one. -/
  refined : Bool
  deriving DecidableEq, Repr

namespace Configuration

/-- Whether loops are searched for. -/
def isLiveness (configuration : Configuration) : Bool :=
  configuration.property = .liveness

/-- Whether loops have to be fair to every process. -/
def isFair (configuration : Configuration) : Bool :=
  configuration.isLiveness && configuration.fairness

/-- The first obstacle to checking a system: no process under test, or one that the system lacks. -/
def obstacle? (configuration : Configuration) (system : System) : Option ConfigurationError :=
  if configuration.processes.isEmpty then some .emptyProcessList
  else
    (configuration.processes.find? fun p => system.processes.length ≤ p).map fun p =>
      .unknownProcess p system.processes.length

/-- The warning about a process under test that has no such location as the target. -/
def warning? (configuration : Configuration) (system : System) (process : Nat) :
    Except Fault (Option Event) := do
  let count ← system.process process >>= Process.locationCount
  return if count ≤ configuration.location then
    some (.neverReached process count configuration.location) else none

/-- The warnings about processes under test, up to the first one whose locations cannot be
counted. -/
def warnings (configuration : Configuration) (system : System) :
    List Nat → List Event × Except Fault Unit
  | [] => ([], .ok ())
  | process :: rest =>
      match configuration.warning? system process with
      | .error fault => ([], .error fault)
      | .ok warning =>
          let later := warnings configuration system rest
          (warning.toList ++ later.1, later.2)

end Configuration

end Trivalent
