import Trivalent.CommandLine.Run

/-!
# The program

Files, the clock and the terminal of the command line.
-/

namespace Trivalent

/-- Runs a loop until there is a result. -/
def Loop.run {κ α : Type} (loop : Loop IO κ α) (k : κ) : IO α := do
  match ← loop.step k with
  | .inl k => loop |>.run k
  | .inr a => return a
partial_fixpoint

instance : Loops IO IO where
  once action := action
  repeatUntil step := Loop.run ⟨step⟩

instance : Clock IO where
  now := IO.monoNanosNow

namespace CommandLine

/-- The refusal of the operating system.  Numbers of errors may be negated, as words of 32 bits. -/
def refusal (number : UInt32) (details : String) : ReadFailure :=
  let number := number.toNat
  .refused details.capitalize (if number < 2147483648 then number else 4294967296 - number)

/-- Why the operating system did not give a file. -/
def failureOf : IO.Error → ReadFailure
  | .alreadyExists _ number details
  | .interrupted _ number details
  | .noFileOrDirectory _ number details
  | .invalidArgument _ number details
  | .permissionDenied _ number details
  | .resourceExhausted _ number details
  | .inappropriateType _ number details
  | .noSuchThing _ number details
  | .otherError number details
  | .resourceBusy number details
  | .resourceVanished number details
  | .unsupportedOperation number details
  | .hardwareFault number details
  | .unsatisfiedConstraints number details
  | .illegalOperation number details
  | .protocolError number details
  | .timeExpired number details => refusal number details
  | .unexpectedEof => .refused "unexpected end of file" 0
  | .userError details => .refused details 0

/-- The text of a file. -/
def readText (path : String) : IO (Except ReadFailure String) := do
  try
    let bytes ← IO.FS.readBinFile path
    match String.fromUTF8? bytes with
    | some text => return .ok text
    | none => return .error .notText
  catch failure => return .error (failureOf failure)

/-- The surroundings of a program that runs. -/
def runningProgram : Surroundings IO where
  read := readText
  coloured := do
    return terminalColours (← IO.getEnv "TERM") (← IO.getEnv "NO_COLOR")

/-- How commands are written. -/
def usage : String :=
  "usage: trivalent [--color never|auto|always] COMMAND\n\n" ++
    "  reachability -l N [OPTIONS] FILE  search for a path to location N\n" ++
    "  liveness -l N [OPTIONS] FILE      search for a loop that avoids location N\n" ++
    "  print FILE                        print a model\n\n" ++
    "  -p, --processes LIST  processes under test: all, or numbers between commas\n" ++
    "      --any             one process at the location is enough\n" ++
    "  -b, --bound N         largest timestep to search (10)\n" ++
    "      --fair            every process has to move in a loop\n" ++
    "      --multi-model     check an abstract model first\n" ++
    "      --abstract FILE   the abstract model\n" ++
    "      --json            write the result as JSON\n" ++
    "      --time            report timing\n"

end CommandLine

end Trivalent

open Trivalent.CommandLine

/-- Runs the command line. -/
def main (arguments : List String) : IO UInt32 := do
  let reply ← run runningProgram arguments
  match reply with
  | .done output => IO.print output
  | .refused reason => IO.eprint reason
  | .stopped .help => IO.print usage
  | .stopped .rejected => IO.eprint usage
  | .faulty fault => IO.eprintln fault.message
  return reply.code.toUInt32
