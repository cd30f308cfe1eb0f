import Trivalent.Json.Container

/-!
# JSON values

A JSON value as a tree, for texts whose layout is told only by the whole value.
-/

namespace Trivalent.Json

/-- A JSON value. -/
inductive Value where
  /-- The null value. -/
  | null
  /-- A constant of logic. -/
  | boolean (value : Bool)
  /-- A number. -/
  | number (value : Number)
  /-- A string. -/
  | string (text : List Char)
  /-- An array. -/
  | array (elements : List Value)
  /-- An object: its entries as they are written, with keys that may repeat. -/
  | object (entries : List (List Char × Value))
  deriving Repr

namespace Reader

/-- A value, with room for `room` levels of nesting. -/
def value : Nat → Reader Value
  | 0 => failNext .tooDeep
  | room + 1 => do
      match ← peekPastBlanks with
      | none => failHere .endBeforeValue
      | some 'n' => skip; wordRest ['u', 'l', 'l']; return .null
      | some 't' => skip; wordRest ['r', 'u', 'e']; return .boolean true
      | some 'f' => skip; wordRest ['a', 'l', 's', 'e']; return .boolean false
      | some '-' => skip; return .number (← number true)
      | some '"' => skip; return .string (← string)
      | some '[' =>
          nested (room + 1) (fun _ => do
            let read ← elements (value room) (fun read v => v :: read)
              ((← get).length + 1) true []
            return .array read.reverse) closeArray
      | some '{' =>
          nested (room + 1) (fun _ => do
            let read ← entries (fun read key => do
                let v ← valueOf (value room)
                return (key, v) :: read)
              ((← get).length + 1) true []
            return .object read.reverse) closeObject
      | some c =>
          if Numeral.isDigit c then return .number (← number false)
          else failNext .valueMissing

end Reader

end Trivalent.Json
