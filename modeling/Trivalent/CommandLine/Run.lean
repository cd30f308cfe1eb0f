import Trivalent.CommandLine.Arguments
import Trivalent.Diagnostic
import Trivalent.FileName
import Trivalent.ModelFile.Loader
import Trivalent.Refinement
import Trivalent.Sat.FirstModel
import Trivalent.System.Printer
import Trivalent.Timing

/-!
# Running commands

A command is run in surroundings that read files and tell the time, and ends with a reply.  A check
may go on for ever, so a command is run in surroundings of loops.
-/

namespace Trivalent.CommandLine

/-- Why a file cannot be read. -/
inductive ReadFailure where
  /-- The operating system refuses, with a number. -/
  | refused (description : String) (number : Nat)
  /-- The file is not text. -/
  | notText
  /-- The name contains the character that ends names. -/
  | endInName
  deriving DecidableEq, Repr

/-- The wording of a failure to read a file. -/
def ReadFailure.message : ReadFailure → String
  | .refused description number => s!"{description} (os error {number})"
  | .notText => "stream did not contain valid UTF-8"
  | .endInName => "file name contained an unexpected NUL byte"

/-- What a command needs of its surroundings, besides a clock. -/
structure Surroundings (m : Type → Type) where
  /-- The text of a file. -/
  read : String → m (Except ReadFailure String)
  /-- Whether the terminal shows colours. -/
  coloured : m Bool

/-- The text of the file with a name, if names can be so. -/
def Surroundings.fetch {m : Type → Type} [Monad m] (surroundings : Surroundings m)
    (file : String) : m (Except ReadFailure String) :=
  if file.toList.contains '\x00' then return .error .endInName else surroundings.read file

/-- How a command ends. -/
inductive Reply where
  /-- It is done, and this is its output. -/
  | done (output : String)
  /-- It is refused, and this is the reason. -/
  | refused (reason : String)
  /-- The arguments make no command. -/
  | stopped (stop : Stop)
  /-- A number left its range. -/
  | faulty (fault : Fault)
  deriving DecidableEq, Repr

/-- The exit code of a reply. -/
def Reply.code : Reply → Nat
  | .done _ => 0
  | .refused _ => 1
  | .stopped .help => 0
  | .stopped .rejected => 2
  | .faulty _ => 101

/-- A refusal, with a line for its reason. -/
def Reply.refusal (reason : String) : Reply :=
  .refused (reason ++ "\n")

/-- The reply to an error of a check; the reason for a refusal begins with `context`. -/
def Reply.ofError (context : String) : CheckError → Reply
  | .fault fault => .faulty fault
  | error => .refusal (context ++ error.message)

/-- A terminal shows colours if it has a name other than that of a terminal without capabilities,
and colours are not declined. -/
def terminalColours (terminal declined : Option String) : Bool :=
  declined.isNone && terminal.any (· ≠ "dumb")

/-- The reply to a failure to load a model from a file.  An expression that cannot be read is
drawn. -/
def loadReply (palette : Palette) (file : String) : ModelFile.LoadError → Reply
  | .badExpression process text failure =>
      .refused ((failure.diagnostic s!"{file} (process {process})" text).text palette)
  | error => .refusal error.message

/-- The configuration that a request makes for a model. -/
def CheckRequest.configuration (request : CheckRequest) (system : System) :
    Except ConfigurationError Configuration := do
  let selection ← Selection.parse request.processes
  return {
    property := request.property
    location := request.location
    processes := selection.resolve system
    combinator := if request.any then .any else .all
    bound := request.bound
    fairness := request.fair
    refined := request.refined }

/-- The file of the abstract model: the counterpart of the model if it is not given. -/
def CheckRequest.abstractPath (request : CheckRequest) : String :=
  request.abstractFile.getD (FileName.abstractCounterpart request.file)

/-- The output of a check that began at `start`.  The report on timing is made behind the banner. -/
def CheckRequest.output {m : Type → Type} [Monad m] [Clock m] (request : CheckRequest)
    (start : Nat) (report : Report) (timings : Timings) : m String := do
  let result ← if request.json then pure [report.document.text] else do
    let now ← (Clock.now : m Nat)
    pure (report.lines (now - start))
  let timing ← if request.time then do
    let now ← (Clock.now : m Nat)
    pure [timings.report now]
    else pure []
  return String.join ((result ++ timing).map (· ++ "\n"))

section Commands

variable {m : Type → Type} [Monad m] (surroundings : Surroundings m)

/-- The palette of a colouring. -/
def palette (colour : Colour) : m Palette := do
  match colour with
  | .never => return .plain
  | .always => return .coloured
  | .auto => return if ← surroundings.coloured then .coloured else .plain

/-- Loads a model from a file. -/
def load (colour : Colour) (file : String) : ExceptT Reply m System := do
  let palette : Palette ← (palette surroundings colour : m Palette)
  let contents : Except ReadFailure String ← (surroundings.fetch file : m _)
  let loaded : Except ModelFile.LoadError System :=
    match contents with
    | .error failure => .error (.unreadable file failure.message)
    | .ok text => ModelFile.load text
  match loaded with
  | .ok system => return system
  | .error error => throw (loadReply palette file error)

/-- Loads the abstract model of a check, if there is one; the configuration has to fit it. -/
def loadAbstract (colour : Colour) (request : CheckRequest) (configuration : Configuration) :
    ExceptT Reply m (Option System) := do
  if configuration.refined then
    let file := request.abstractPath
    let system ← load surroundings colour file
    match (configuration.validate system).2 with
    | .error error => throw (.ofError (file ++ ": ") error)
    | .ok _ => return some system
  else return none

/-- What a check works on: the model, the abstract model if there is one, and the configuration. -/
def loadCheck (colour : Colour) (request : CheckRequest) :
    ExceptT Reply m (System × Option System × Configuration) := do
  let system ← load surroundings colour request.file
  let configuration ←
    match request.configuration system with
    | .error error => throw (.refusal error.message)
    | .ok configuration => pure configuration
  match (configuration.validate system).2 with
  | .error error => throw (.ofError "" error)
  | .ok _ => pure ()
  let abstract ← loadAbstract surroundings colour request configuration
  return (system, abstract, configuration)

/-- Prints a model. -/
def runPrint (colour : Colour) (file : String) : ExceptT Reply m String := do
  let system ← load surroundings colour file
  match system.text with
  | .error fault => throw (.faulty fault)
  | .ok text => return text

variable {n : Type → Type} [Monad n] [Loops m n] [Clock m]

/-- Checks a model.  Its queries are recorded behind those of `timings`. -/
def runCheck (timings : Timings) (colour : Colour) (request : CheckRequest) :
    n (Except Reply String) := do
  let start : Nat ← Loops.once (Clock.now : m Nat)
  match ← Loops.once (loadCheck surroundings colour request).run with
  | .error reply => return .error reply
  | .ok (system, abstract, configuration) =>
      let engine := Sat.firstModel false
      let (checked, timings) ←
        (check (m := StateT Timings m) engine.solver engine.initial system abstract
          configuration).run timings
      match checked with
      | .error fault => return .error (.faulty fault)
      | .ok (_, .error error) => return .error (.ofError "" error)
      | .ok (_, .ok report) =>
          return .ok (← Loops.once (request.output start report timings : m String))

/-- Runs a command line.  The clock of the timings starts when the command is known. -/
def run (arguments : List String) : n Reply :=
  match Invocation.read arguments with
  | .error stop => return .stopped stop
  | .ok ⟨colour, command⟩ => do
      let timings : Timings ← Loops.once (Timings.new : m Timings)
      let result ←
        match command with
        | .check request => runCheck surroundings timings colour request
        | .print file => Loops.once (runPrint surroundings colour file).run
      match result with
      | .ok output => return .done output
      | .error reply => return reply

end Commands

end Trivalent.CommandLine
