/-!
# JSON documents

JSON that is written: a tree, and its text with one entry in a line, indented by two blanks for
every level.
-/

namespace Trivalent.Json

/-- A JSON document. -/
inductive Document where
  /-- The null value. -/
  | null
  /-- A constant of logic. -/
  | boolean (value : Bool)
  /-- A natural number. -/
  | number (value : Nat)
  /-- A string. -/
  | string (text : String)
  /-- An array. -/
  | array (elements : List Document)
  /-- An object with its entries in order. -/
  | object (entries : List (String × Document))
  deriving Repr

namespace Document

/-- A character inside a string: quotation marks, backslashes and control characters are escaped. -/
def escape (c : Char) : List Char :=
  if c = '"' then ['\\', '"']
  else if c = '\\' then ['\\', '\\']
  else if c = '\x08' then ['\\', 'b']
  else if c = '\x0c' then ['\\', 'f']
  else if c = '\n' then ['\\', 'n']
  else if c = '\r' then ['\\', 'r']
  else if c = '\t' then ['\\', 't']
  else if c.toNat < 32 then
    ['\\', 'u', '0', '0', Nat.digitChar (c.toNat / 16), Nat.digitChar (c.toNat % 16)]
  else [c]

/-- A string in quotation marks. -/
def quote (text : String) : String :=
  "\"" ++ String.ofList (text.toList.flatMap escape) ++ "\""

/-- The start of a line at a level. -/
def newline (level : Nat) : String :=
  "\n" ++ String.ofList (List.replicate (2 * level) ' ')

/-- Entries in lines of their own between brackets at a level. -/
def bracket (level : Nat) (opening closing : String) (entries : List String) : String :=
  if entries.isEmpty then opening ++ closing
  else
    opening ++ newline (level + 1) ++ ("," ++ newline (level + 1)).intercalate entries ++
      newline level ++ closing

mutual

/-- The text of a document that begins at a level. -/
def textAt (level : Nat) : Document → String
  | .null => "null"
  | .boolean value => toString value
  | .number value => toString value
  | .string text => quote text
  | .array elements => bracket level "[" "]" (elementTexts (level + 1) elements)
  | .object entries => bracket level "\x7b" "\x7d" (entryTexts (level + 1) entries)

/-- The texts of the elements of an array. -/
def elementTexts (level : Nat) : List Document → List String
  | [] => []
  | element :: rest => textAt level element :: elementTexts level rest

/-- The texts of the entries of an object. -/
def entryTexts (level : Nat) : List (String × Document) → List String
  | [] => []
  | (key, value) :: rest => (quote key ++ ": " ++ textAt level value) :: entryTexts level rest

end

/-- The text of a document. -/
def text (document : Document) : String :=
  textAt 0 document

end Document

end Trivalent.Json
