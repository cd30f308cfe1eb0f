import Trivalent.Decimal.Shortest
import Trivalent.Text.Bytes
import Trivalent.Text.Quoted

/-!
# Problems of JSON texts

Why a text is not the JSON that is wanted, and where.  A place is known by the text that is left
from there on.
-/

namespace Trivalent.Json

/-- What kind of value is wanted. -/
inductive Wanted where
  /-- An object with named fields, or an array of their values. -/
  | structure (name : String)
  /-- An object with keys of any name. -/
  | map
  /-- An array. -/
  | sequence
  /-- A constant of logic. -/
  | boolean
  /-- A number that is a word. -/
  | word
  deriving DecidableEq, Repr

/-- How a wanted kind of value is called. -/
def Wanted.text : Wanted → String
  | .structure name => "struct " ++ name
  | .map => "a map"
  | .sequence => "a sequence"
  | .boolean => "a boolean"
  | .word => "usize"

/-- A number as it is read. -/
inductive Number where
  /-- A word. -/
  | word (n : Nat)
  /-- The negative of a number from one to `2 ^ 63`. -/
  | negative (magnitude : Nat)
  /-- Any other number, with its sign. -/
  | floating (negative : Bool) (value : Decimal.Binary)
  deriving DecidableEq, Repr

/-- A value of the wrong kind. -/
inductive Found where
  /-- The null value. -/
  | null
  /-- A constant of logic. -/
  | boolean (value : Bool)
  /-- A number. -/
  | number (value : Number)
  /-- A string. -/
  | string (text : List Char)
  /-- An array. -/
  | array
  /-- An object. -/
  | object
  deriving DecidableEq, Repr

/-- How a value of the wrong kind is called. -/
def Found.text : Found → String
  | .null => "null"
  | .boolean value => s!"boolean \x60{value}\x60"
  | .number (.word n) => s!"integer \x60{n}\x60"
  | .number (.negative magnitude) => s!"integer \x60-{magnitude}\x60"
  | .number (.floating negative value) =>
      "floating point \x60" ++ (if negative then "-" else "") ++ String.ofList value.text ++ "\x60"
  | .string text => "string " ++ String.ofList (Text.quoted text)
  | .array => "sequence"
  | .object => "map"

/-- Why a text is not the JSON that is wanted. -/
inductive Cause where
  /-- The text ends inside an array. -/
  | endInArray
  /-- The text ends inside an object. -/
  | endInObject
  /-- The text ends inside a string. -/
  | endInString
  /-- The text ends where a value is due. -/
  | endBeforeValue
  /-- A colon is missing behind a key. -/
  | colonMissing
  /-- An entry of an array is followed by something else than a comma or the end. -/
  | arrayUnseparated
  /-- An entry of an object is followed by something else than a comma or the end. -/
  | objectUnseparated
  /-- A word is misspelled. -/
  | badWord
  /-- There is no value where one is due. -/
  | valueMissing
  /-- An escape sequence is unknown or malformed. -/
  | badEscape
  /-- A number is malformed. -/
  | badNumber
  /-- A number is too large. -/
  | numberOutOfRange
  /-- A string contains a control character. -/
  | controlCharacter
  /-- A key is not a string. -/
  | keyNotString
  /-- A surrogate stands alone or in the wrong order. -/
  | loneSurrogate
  /-- A surrogate is not followed by another escape. -/
  | surrogateUnfollowed
  /-- A comma stands before the end of an array or an object. -/
  | trailingComma
  /-- Something follows a complete value. -/
  | trailingText
  /-- Values are nested too deep. -/
  | tooDeep
  /-- A value has the wrong kind. -/
  | mismatch (found : Found) (wanted : Wanted)
  /-- A number is not in the wanted range. -/
  | outside (found : Found) (wanted : Wanted)
  /-- A field is given twice. -/
  | duplicateField (name : String)
  /-- A field is not given. -/
  | missingField (name : String)
  /-- A structure is given as an array that ends after `length` of its `fields`. -/
  | tooShort (length : Nat) (name : String) (fields : Nat)
  /-- A value fits none of several layouts. -/
  | noLayout (name : String)
  deriving DecidableEq, Repr

/-- The wording of a cause. -/
def Cause.text : Cause → String
  | .endInArray => "EOF while parsing a list"
  | .endInObject => "EOF while parsing an object"
  | .endInString => "EOF while parsing a string"
  | .endBeforeValue => "EOF while parsing a value"
  | .colonMissing => "expected \x60:\x60"
  | .arrayUnseparated => "expected \x60,\x60 or \x60]\x60"
  | .objectUnseparated => "expected \x60,\x60 or \x60\x7d\x60"
  | .badWord => "expected ident"
  | .valueMissing => "expected value"
  | .badEscape => "invalid escape"
  | .badNumber => "invalid number"
  | .numberOutOfRange => "number out of range"
  | .controlCharacter =>
      "control character (\\u0000-\\u001F) found while parsing a string"
  | .keyNotString => "key must be a string"
  | .loneSurrogate => "lone leading surrogate in hex escape"
  | .surrogateUnfollowed => "unexpected end of hex escape"
  | .trailingComma => "trailing comma"
  | .trailingText => "trailing characters"
  | .tooDeep => "recursion limit exceeded"
  | .mismatch found wanted => "invalid type: " ++ found.text ++ ", expected " ++ wanted.text
  | .outside found wanted => "invalid value: " ++ found.text ++ ", expected " ++ wanted.text
  | .duplicateField name => "duplicate field \x60" ++ name ++ "\x60"
  | .missingField name => "missing field \x60" ++ name ++ "\x60"
  | .tooShort length name fields =>
      s!"invalid length {length}, expected struct {name} with {fields} elements"
  | .noLayout name => "data did not match any variant of untagged enum " ++ name

/-- A cause and its place. -/
structure Problem where
  /-- The cause. -/
  cause : Cause
  /-- The text that is left. -/
  rest : List Char
  /-- The number of bytes of `rest` up to the place. -/
  ahead : Nat
  /-- Whether this is the final place.  A complaint about a structure or an array as a whole is
  placed where the reading of the array or object around it would end. -/
  settled : Bool

/-- The line of a place and the number of bytes from the start of the line to it, for a place
`index` bytes into a text.  The text begins `before` bytes after the text that is counted, in line
`line`, which began at `start`. -/
def locateFrom (index before line start : Nat) : List Char → Nat × Nat
  | [] => (line, index - start)
  | c :: rest =>
      if index ≤ before then (line, index - start)
      else if c = '\n' then locateFrom index (before + 1) (line + 1) (before + 1) rest
      else locateFrom index (before + c.utf8Size) line start rest

/-- The message of a problem of a text. -/
def Problem.message (problem : Problem) (text : List Char) : String :=
  let total := Text.bytes text
  let index := min total (total - Text.bytes problem.rest + problem.ahead)
  let (line, column) := locateFrom index 0 1 0 text
  problem.cause.text ++ s!" at line {line} column {column}"

end Trivalent.Json
