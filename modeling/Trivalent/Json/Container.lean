import Trivalent.Json.Reader

/-!
# Reading JSON arrays and objects

The entries of arrays and objects, one after the other, by a reader for each.  Arrays and objects
may be nested at most 127 deep: `room` is one more than the number of levels that are left.
-/

namespace Trivalent.Json.Reader

/-- The room for the levels of nesting in a text. -/
def nestingLimit : Nat :=
  128

/-- Whether a further entry follows in an array, of which none (`first`) or some were read. -/
def nextElement (first : Bool) : Reader Bool := do
  match ← peekPastBlanks with
  | none => failHere .endInArray
  | some ']' => return false
  | some ',' =>
      if first then return true
      else
        skip
        match ← peekPastBlanks with
        | none => failHere .endBeforeValue
        | some ']' => failNext .trailingComma
        | some _ => return true
  | some _ => if first then return true else failNext .arrayUnseparated

/-- The key of a further entry of an object, of which none (`first`) or some were read. -/
def nextKey (first : Bool) : Reader (Option (List Char)) := do
  match ← peekPastBlanks with
  | none => failHere .endInObject
  | some '}' => return none
  | some ',' =>
      if first then failNext .keyNotString
      else
        skip
        match ← peekPastBlanks with
        | none => failHere .endBeforeValue
        | some '"' => key
        | some '}' => failNext .trailingComma
        | some _ => failNext .keyNotString
  | some '"' => if first then key else failNext .objectUnseparated
  | some _ => if first then failNext .keyNotString else failNext .objectUnseparated
where
  /-- A key whose opening quote comes next. -/
  key : Reader (Option (List Char)) := do
    skip
    return some (← string)

/-- The colon between a key and its value. -/
def colon : Reader Unit := do
  match ← peekPastBlanks with
  | some ':' => skip
  | some _ => failNext .colonMissing
  | none => failHere .endInObject

/-- The value behind a key. -/
def valueOf {α : Type} (value : Reader α) : Reader α := do
  colon
  value

/-- At most `count` entries of an array, each added to what was read before. -/
def elements {α β : Type} (element : Reader α) (add : β → α → β) :
    Nat → Bool → β → Reader β
  | 0, _, read => return read
  | count + 1, first, read => do
      if ← nextElement first then
        let value ← element
        elements element add count false (add read value)
      else return read

/-- At most `count` entries of an object, each added to what was read before. -/
def entries {β : Type} (entry : β → List Char → Reader β) : Nat → Bool → β → Reader β
  | 0, _, read => return read
  | count + 1, first, read => do
      match ← nextKey first with
      | none => return read
      | some key =>
          let read ← entry read key
          entries entry count false read

/-! ## Brackets -/

/-- The end of an array.  Of what stands before it nothing may be left but one comma. -/
def closeArray : Reader Unit := do
  match ← peekPastBlanks with
  | none => failHere .endInArray
  | some ']' => skip
  | some ',' =>
      skip
      match ← peekPastBlanks with
      | some ']' => failNext .trailingComma
      | _ => failNext .trailingText
  | some _ => failNext .trailingText

/-- The end of an object. -/
def closeObject : Reader Unit := do
  match ← peekPastBlanks with
  | none => failHere .endInObject
  | some '}' => skip
  | some ',' => failNext .trailingComma
  | some _ => failNext .trailingText

/-- What is inside a bracket, and its end.  A complaint about the whole is placed where reading the
end stops. -/
def enclosed {α : Type} (inside : Reader α) (close : Reader Unit) : Reader α :=
  fun text =>
    match inside text with
    | .ok (value, rest) => (do close; return value : Reader α) rest
    | .error problem =>
        if problem.settled then .error problem
        else
          match close problem.rest with
          | .ok (_, rest) => .error { problem with rest, settled := true }
          | .error stop => .error { problem with rest := stop.rest, settled := true }

/-- What stands in brackets that open with the next character.  There has to be room for a further
level. -/
def nested {α : Type} (room : Nat) (inside : Nat → Reader α) (close : Reader Unit) : Reader α := do
  if room ≤ 1 then failNext .tooDeep
  else
    skip
    enclosed (inside (room - 1)) close

/-! ## Values of a wanted kind -/

/-- Fails on a value of another kind than the wanted one.  A scalar is read first. -/
def mismatch {α : Type} (wanted : Wanted) : Reader α := do
  let wrong := fun (found : Found) => failHere (.mismatch found wanted)
  match (← get).head? with
  | some 'n' => skip; wordRest ['u', 'l', 'l']; wrong .null
  | some 't' => skip; wordRest ['r', 'u', 'e']; wrong (.boolean true)
  | some 'f' => skip; wordRest ['a', 'l', 's', 'e']; wrong (.boolean false)
  | some '"' => skip; let text ← string; wrong (.string text)
  | some '[' => wrong .array
  | some '{' => wrong .object
  | some '-' => skip; let n ← number true; wrong (.number n)
  | some c =>
      if Numeral.isDigit c then
        let n ← number false
        wrong (.number n)
      else failNext .valueMissing
  | none => failNext .valueMissing

/-- A constant of logic. -/
def boolean : Reader Bool := do
  match ← peekPastBlanks with
  | none => failHere .endBeforeValue
  | some 't' => skip; wordRest ['r', 'u', 'e']; return true
  | some 'f' => skip; wordRest ['a', 'l', 's', 'e']; return false
  | some _ => mismatch .boolean

/-- A number that is a word. -/
def word : Reader Nat := do
  let fit := fun (n : Number) => (match n with
    | .word n => return n
    | .negative _ => failHere (.outside (.number n) .word)
    | .floating _ _ => failHere (.mismatch (.number n) .word) : Reader Nat)
  match ← peekPastBlanks with
  | none => failHere .endBeforeValue
  | some '-' => skip; let n ← number true; fit n
  | some c =>
      if Numeral.isDigit c then
        let n ← number false
        fit n
      else mismatch .word

/-- An array of values of one kind. -/
def list {α : Type} (room : Nat) (element : Nat → Reader α) : Reader (List α) := do
  match ← peekPastBlanks with
  | none => failHere .endBeforeValue
  | some '[' =>
      nested room (fun room => do
        let read ← elements (element room) (fun read value => value :: read)
          ((← get).length + 1) true []
        return read.reverse) closeArray
  | some _ => mismatch .sequence

/-- An object with keys of any name, of which later ones win. -/
def table {α : Type} (room : Nat) (value : Nat → Reader α) :
    Reader (List (String × α)) := do
  match ← peekPastBlanks with
  | none => failHere .endBeforeValue
  | some '{' =>
      nested room (fun room => do
        let read ← entries (fun read key => do
            let v ← valueOf (value room)
            return (String.ofList key, v) :: read)
          ((← get).length + 1) true []
        return read.reverse) closeObject
  | some _ => mismatch .map

/-- The end of a text. -/
def atEnd : Reader Unit := do
  match ← peekPastBlanks with
  | none => return ()
  | some _ => failNext .trailingText

end Trivalent.Json.Reader
