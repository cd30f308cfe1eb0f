import Trivalent.Json.Container

/-!
# Skipping JSON values

Values of no interest are skipped without being kept.  They may be nested at any depth, so the open
arrays and objects are kept in a list.
-/

namespace Trivalent.Json.Reader

/-- An array or an object that is open. -/
inductive Bracket where
  /-- An open array. -/
  | array
  /-- An open object. -/
  | object
  deriving DecidableEq, Repr

/-- The character that closes a bracket. -/
def Bracket.closing : Bracket → Char
  | .array => ']'
  | .object => '}'

/-- What is wrong where a text ends inside a bracket. -/
def Bracket.ended : Bracket → Cause
  | .array => .endInArray
  | .object => .endInObject

/-- What is wrong where an entry is not followed by a comma or the closing character. -/
def Bracket.unseparated : Bracket → Cause
  | .array => .arrayUnseparated
  | .object => .objectUnseparated

/-- Skips a scalar, or opens a bracket. -/
def skipScalar : Reader (Option Bracket) := do
  match ← peekPastBlanks with
  | none => failHere .endBeforeValue
  | some 'n' => skip; wordRest ['u', 'l', 'l']; return none
  | some 't' => skip; wordRest ['r', 'u', 'e']; return none
  | some 'f' => skip; wordRest ['a', 'l', 's', 'e']; return none
  | some '-' => skip; skipNumber; return none
  | some '"' => skip; skipString; return none
  | some '[' => skip; return some .array
  | some '{' => skip; return some .object
  | some c =>
      if Numeral.isDigit c then
        skipNumber
        return none
      else failNext .valueMissing

/-- Skips the key of an entry and the colon behind it. -/
def skipKey : Reader Unit := do
  match ← peekPastBlanks with
  | some '"' =>
      skip
      skipString
      colon
  | some _ => failNext .keyNotString
  | none => failHere .endInObject

/-- Goes on to the next value in the innermost of the open brackets, of which `fresh` tells whether
it has no entry yet.  Brackets that end are closed; nothing is left open at the end of the value. -/
def nextValue : List Bracket → Bool → Reader (List Bracket)
  | [], _ => return []
  | bracket :: outer, fresh => do
      let enter : Reader (List Bracket) := do
        if bracket = .object then skipKey
        return bracket :: outer
      match ← peekPastBlanks with
      | none => failHere bracket.ended
      | some c =>
          if c = ',' ∧ !fresh then
            skip
            enter
          else if c = bracket.closing then
            skip
            nextValue outer false
          else if fresh then enter
          else failNext bracket.unseparated

/-- Skips at most `count` values, the first of them inside the open brackets. -/
def skipValues : Nat → List Bracket → Reader Unit
  | 0, _ => return ()
  | count + 1, outer => do
      let opened ← skipScalar
      match ← nextValue (opened.toList ++ outer) opened.isSome with
      | [] => return ()
      | outer => skipValues count outer

/-- Skips a value. -/
def skipValue : Reader Unit := do
  skipValues ((← get).length + 1) []

end Trivalent.Json.Reader
