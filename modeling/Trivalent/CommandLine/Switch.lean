import Trivalent.Text.Split

/-!
# Switches

Arguments of a command.  A switch is given by its name behind two hyphens or, if it takes a value,
by its letter behind one.  The value is attached, behind an equals sign or just behind the letter,
or it is the next argument.  Two hyphens alone end the switches; all else is a plain word.
-/

namespace Trivalent.CommandLine

/-- Why arguments do not make a command. -/
inductive Stop where
  /-- Help is asked for. -/
  | help
  /-- The arguments are not understood. -/
  | rejected
  deriving DecidableEq, Repr

/-- The form of an argument. -/
inductive Shape where
  /-- The end of the switches. -/
  | ending
  /-- A name, and the value that is attached to it. -/
  | named (name : List Char) (attached : Option (List Char))
  /-- A letter, and what follows it. -/
  | lettered (letter : Char) (tail : List Char)
  /-- A plain word. -/
  | word
  deriving DecidableEq, Repr

/-- The form of an argument.  A single hyphen is a word. -/
def Shape.of : List Char → Shape
  | ['-', '-'] => .ending
  | '-' :: '-' :: text =>
      match text.dropWhile (· ≠ '=') with
      | [] => .named text none
      | _ :: value => .named (text.takeWhile (· ≠ '=')) (some value)
  | '-' :: letter :: tail => .lettered letter tail
  | _ => .word

/-- A switch with settings of type `α`. -/
inductive Switch (α : Type) where
  /-- A switch without a value. -/
  | flag (name : String) (setting : α)
  /-- A switch with a value, of which not every text may be accepted. -/
  | valued (name : String) (letter : Option Char) (read : List Char → Option α)

namespace Switch

variable {α : Type}

/-- The name of a switch. -/
def name : Switch α → String
  | .flag name _ => name
  | .valued name _ _ => name

/-- Whether a switch has a letter. -/
def hasLetter (letter : Char) : Switch α → Bool
  | .flag _ _ => false
  | .valued _ own _ => own == some letter

end Switch

/-- A switch whose value is in the next argument. -/
structure Pending (α : Type) where
  /-- The name of the switch. -/
  name : String
  /-- The settings that its values stand for. -/
  read : List Char → Option α

/-- What arguments say, as far as they are read. -/
structure Reading (α : Type) where
  /-- The settings, with the names of their switches. -/
  settings : List (String × α)
  /-- The plain words. -/
  words : List (List Char)
  /-- The switch that waits for its value. -/
  pending : Option (Pending α)
  /-- Whether the switches are ended. -/
  ended : Bool

namespace Reading

variable {α : Type}

/-- Nothing is read. -/
def empty : Reading α :=
  ⟨[], [], none, false⟩

/-- Takes a setting; a switch is given once. -/
def set (reading : Reading α) (name : String) (setting : α) : Except Stop (Reading α) :=
  if reading.settings.any fun given => given.1 == name then .error .rejected
  else .ok { reading with settings := reading.settings ++ [(name, setting)], pending := none }

/-- Takes a setting from the value that is given for it. -/
def setValue (reading : Reading α) (switch : Pending α) (value : List Char) :
    Except Stop (Reading α) :=
  match switch.read value with
  | none => .error .rejected
  | some setting => reading.set switch.name setting

/-- Takes a switch that is given by its name. -/
def named (switches : List (Switch α)) (reading : Reading α) (name : List Char)
    (attached : Option (List Char)) : Except Stop (Reading α) :=
  if name = "help".toList then .error (if attached.isSome then .rejected else .help)
  else
    match switches.find? fun switch => switch.name.toList == name, attached with
    | none, _ => .error .rejected
    | some (.flag _ _), some _ => .error .rejected
    | some (.flag name setting), none => reading.set name setting
    | some (.valued name _ read), some value => reading.setValue ⟨name, read⟩ value
    | some (.valued name _ read), none => .ok { reading with pending := some ⟨name, read⟩ }

/-- Takes a switch that is given by its letter. -/
def lettered (switches : List (Switch α)) (reading : Reading α) (letter : Char)
    (tail : List Char) : Except Stop (Reading α) :=
  if letter = 'h' then .error .help
  else
    match switches.find? (Switch.hasLetter letter), tail with
    | some (.valued name _ read), [] => .ok { reading with pending := some ⟨name, read⟩ }
    | some (.valued name _ read), '=' :: value => reading.setValue ⟨name, read⟩ value
    | some (.valued name _ read), value => reading.setValue ⟨name, read⟩ value
    | _, _ => .error .rejected

/-- Takes an argument. -/
def take (switches : List (Switch α)) (reading : Reading α) (argument : List Char) :
    Except Stop (Reading α) :=
  let word : Reading α := { reading with words := reading.words ++ [argument] }
  if reading.ended then .ok word
  else
    match reading.pending, Shape.of argument with
    | some switch, .word => reading.setValue switch argument
    | some _, _ => .error .rejected
    | none, .ending => .ok { reading with ended := true }
    | none, .word => .ok word
    | none, .named name attached => reading.named switches name attached
    | none, .lettered letter tail => reading.lettered switches letter tail

/-- Reads arguments until a condition is met; behind them, the ones that are left. -/
def readUntil (switches : List (Switch α)) (enough : Reading α → Bool) (reading : Reading α) :
    List (List Char) → Except Stop (Reading α × List (List Char))
  | [] => if reading.pending.isSome then .error .rejected else .ok (reading, [])
  | argument :: rest => do
      let reading ← reading.take switches argument
      if enough reading then return (reading, rest)
      else readUntil switches enough reading rest

/-- The value that a setting has by a reading, if it is given. -/
def find? {β : Type} (reading : Reading α) (value : α → Option β) : Option β :=
  reading.settings.findSome? fun setting => value setting.2

end Reading

end Trivalent.CommandLine
