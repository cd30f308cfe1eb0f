import Trivalent.Json.Problem
import Trivalent.Text.Numeral

/-!
# Reading JSON scalars

Blanks, words, strings and numbers of JSON, read from the front of a text.
-/

namespace Trivalent.Json

/-- Reads from the front of a text; what is left is the state. -/
abbrev Reader (α : Type) : Type :=
  StateT (List Char) (Except Problem) α

namespace Reader

/-- Fails `ahead` bytes behind the current place. -/
def failAhead {α : Type} (ahead : Nat) (cause : Cause) : Reader α := do
  throw ⟨cause, ← get, ahead, true⟩

/-- Fails at the current place. -/
def failHere {α : Type} (cause : Cause) : Reader α :=
  failAhead 0 cause

/-- Fails behind the next byte, which is the one that is wrong. -/
def failNext {α : Type} (cause : Cause) : Reader α :=
  failAhead 1 cause

/-- Complains about the value around the current place. -/
def complain {α : Type} (cause : Cause) : Reader α := do
  throw ⟨cause, ← get, 0, false⟩

/-- The blanks of JSON. -/
def isBlank (c : Char) : Bool :=
  c == ' ' || c == '\n' || c == '\t' || c == '\r'

/-- Skips blanks and looks at the next character. -/
def peekPastBlanks : Reader (Option Char) := do
  let rest := (← get).dropWhile isBlank
  set rest
  return rest.head?

/-- Skips the next character. -/
def skip : Reader Unit :=
  modify (List.drop 1)

/-! ## Words -/

/-- The rest of a word of which the first letter was read. -/
def wordRest : List Char → Reader Unit
  | [] => return ()
  | c :: letters => do
      match ← get with
      | [] => failHere .endBeforeValue
      | d :: rest =>
          if c = d then
            set rest
            wordRest letters
          else failNext .badWord

/-! ## Strings -/

/-- The value of a hexadecimal digit. -/
def hexDigit? (c : Char) : Option Nat :=
  if '0' ≤ c ∧ c ≤ '9' then some (c.toNat - '0'.toNat)
  else if 'a' ≤ c ∧ c ≤ 'f' then some (c.toNat - 'a'.toNat + 10)
  else if 'A' ≤ c ∧ c ≤ 'F' then some (c.toNat - 'A'.toNat + 10)
  else none

/-- The four hexadecimal digits of an escape. -/
def hexEscape : Reader Nat := do
  let rest ← get
  if Text.bytes (rest.take 4) < 4 then
    set ([] : List Char)
    failHere .endInString
  else
    match rest with
    | a :: b :: c :: d :: behind =>
        match hexDigit? a, hexDigit? b, hexDigit? c, hexDigit? d with
        | some a, some b, some c, some d =>
            set behind
            return ((a * 16 + b) * 16 + c) * 16 + d
        | _, _, _, _ => failAhead 4 .badEscape
    | _ => failAhead 4 .badEscape

/-- A sign that has to follow a first surrogate. -/
def surrogateSign (c : Char) : Reader Unit := do
  match ← get with
  | [] => failHere .endInString
  | d :: rest => if c = d then set rest else failNext .surrogateUnfollowed

/-- The character of a numbered escape; a character beyond the first 65536 takes a pair of
surrogates. -/
def numberedEscape : Reader Char := do
  let first ← hexEscape
  if 0xDC00 ≤ first ∧ first ≤ 0xDFFF then failHere .loneSurrogate
  else if first < 0xD800 ∨ 0xDBFF < first then return Char.ofNat first
  else
    surrogateSign '\\'
    surrogateSign 'u'
    let second ← hexEscape
    if second < 0xDC00 ∨ 0xDFFF < second then failHere .loneSurrogate
    else return Char.ofNat ((first - 0xD800) * 0x400 + (second - 0xDC00) + 0x10000)

/-- The character of a one-letter escape. -/
def shortEscape? (c : Char) : Option Char :=
  match c with
  | '"' => some '"'
  | '\\' => some '\\'
  | '/' => some '/'
  | 'b' => some '\x08'
  | 'f' => some '\x0c'
  | 'n' => some '\n'
  | 'r' => some '\r'
  | 't' => some '\t'
  | _ => none

/-- What follows a backslash; `numbered` reads what follows its letter `u`. -/
def escape (numbered : Reader Char) : Reader Char := do
  match ← get with
  | [] => failHere .endInString
  | c :: rest =>
      match shortEscape? c with
      | some meaning =>
          set rest
          return meaning
      | none =>
          if c = 'u' then
            set rest
            numbered
          else failNext .badEscape

/-- The rest of a string of at most `length` characters of which `read` was read, in reverse.
`controlAhead` is where a control character is reported. -/
def stringRest (numbered : Reader Char) (controlAhead : Nat) :
    Nat → List Char → Reader (List Char)
  | 0, _ => failHere .endInString
  | length + 1, read => do
      match ← get with
      | [] => failHere .endInString
      | c :: rest =>
          if c = '"' then
            set rest
            return read.reverse
          else if c = '\\' then
            set rest
            let meaning ← escape numbered
            stringRest numbered controlAhead length (meaning :: read)
          else if c.toNat < 0x20 then failAhead controlAhead .controlCharacter
          else
            set rest
            stringRest numbered controlAhead length (c :: read)

/-- A string of which the opening quote was read. -/
def string : Reader (List Char) := do
  stringRest numberedEscape 1 ((← get).length + 1) []

/-- Skips a string of which the opening quote was read.  Numbered escapes may stand for
surrogates. -/
def skipString : Reader Unit := do
  let _ ← stringRest (do let _ ← hexEscape; return ' ') 0 ((← get).length + 1) []

/-! ## Numbers -/

/-- The next characters while they are digits. -/
def digitRun : Reader (List Char) := do
  let (digits, rest) := (← get).span Numeral.isDigit
  set rest
  return digits

/-- The number of the digits that fit a word, and how many further digits there are. -/
def leadingWord : Nat → List Char → Nat × Nat
  | n, [] => (n, 0)
  | n, c :: digits =>
      let next := 10 * n + (c.toNat - '0'.toNat)
      if next < Word.limit then leadingWord next digits else (n, (c :: digits).length)

/-- The value of decimal digits, the power of ten they are multiplied by, and their sign. -/
def floating (negative : Bool) (significand : Nat) (exponent : Int) : Reader Number := do
  match Decimal.Binary.ofDecimal? significand exponent with
  | some value => return .floating negative value
  | none => failHere .numberOutOfRange

/-- The largest exponent that is told from larger ones. -/
def exponentLimit : Nat :=
  Nat.pow 2 31 - 1

/-- The digits of an exponent that stay within the limit, and those behind them. -/
def withinLimit : Nat → List Char → Nat × List Char
  | n, [] => (n, [])
  | n, c :: digits =>
      let next := 10 * n + (c.toNat - '0'.toNat)
      if next ≤ exponentLimit then withinLimit next digits else (n, c :: digits)

/-- An exponent whose letter was read.  One beyond the limit makes the number zero or too large. -/
def exponent (negative : Bool) (significand : Nat) (scale : Int) : Reader Number := do
  let downwards := (← get).head? == some '-'
  if downwards || (← get).head? == some '+' then skip
  match ← get with
  | [] => failHere .endBeforeValue
  | c :: _ =>
      if !Numeral.isDigit c then failNext .badNumber
      else
        let before ← get
        let digits ← digitRun
        let (value, beyond) := withinLimit 0 digits
        if beyond.isEmpty then
          floating negative significand (if downwards then scale - value else scale + value)
        else if significand = 0 ∨ downwards then
          return .floating negative ⟨0, 0⟩
        else
          set (before.drop (digits.length - beyond.length + 1))
          failHere .numberOutOfRange

/-- What may follow the digits of a number that has a point or more digits than a word: an exponent
or nothing. -/
def scaled (negative : Bool) (significand : Nat) (scale : Int) : Reader Number := do
  match (← get).head? with
  | some 'e' => skip; exponent negative significand scale
  | some 'E' => skip; exponent negative significand scale
  | _ => floating negative significand scale

/-- The places of a number whose point was read.  Places that do not fit a word are dropped. -/
def places (negative : Bool) (significand : Nat) (scale : Int) : Reader Number := do
  let digits ← digitRun
  let (value, further) := leadingWord significand digits
  if digits.isEmpty then
    match ← get with
    | [] => failHere .endBeforeValue
    | _ => failNext .badNumber
  else scaled negative value (scale - (digits.length - further : Nat))

/-- A number behind its sign. -/
def number (negative : Bool) : Reader Number := do
  match ← get with
  | [] => failHere .endBeforeValue
  | '0' :: d :: _ =>
      skip
      if Numeral.isDigit d then failNext .badNumber else behindInteger 0 0
  | c :: _ =>
      if !Numeral.isDigit c then failNext .badNumber
      else
        let digits ← digitRun
        let (value, further) := leadingWord 0 digits
        behindInteger value further
where
  /-- What follows the integer part `value`, of which `further` digits do not fit a word. -/
  behindInteger (value further : Nat) : Reader Number := do
    match (← get).head? with
    | some '.' => skip; places negative value further
    | some 'e' => skip; exponent negative value further
    | some 'E' => skip; exponent negative value further
    | _ =>
        if further ≠ 0 then floating negative value further
        else if !negative then return .word value
        else if value = 0 ∨ Nat.pow 2 63 < value then floating true value 0
        else return .negative value

/-! ## Skipping numbers -/

/-- Skips an exponent whose letter was read. -/
def skipExponent : Reader Unit := do
  if (← get).head? == some '-' || (← get).head? == some '+' then skip
  match ← get with
  | [] => failHere .badNumber
  | c :: _ =>
      if Numeral.isDigit c then
        let _ ← digitRun
      else failNext .badNumber

/-- Skips a number behind its sign. -/
def skipNumber : Reader Unit := do
  match ← get with
  | [] => failHere .badNumber
  | '0' :: d :: _ =>
      skip
      if Numeral.isDigit d then failNext .badNumber else behindInteger
  | c :: _ =>
      if !Numeral.isDigit c then failNext .badNumber
      else
        let _ ← digitRun
        behindInteger
where
  /-- Skips what follows the integer part. -/
  behindInteger : Reader Unit := do
    match (← get).head? with
    | some '.' =>
        skip
        let digits ← digitRun
        if digits.isEmpty then failNext .badNumber
        else
          match (← get).head? with
          | some 'e' => skip; skipExponent
          | some 'E' => skip; skipExponent
          | _ => return ()
    | some 'e' => skip; skipExponent
    | some 'E' => skip; skipExponent
    | _ => return ()

end Reader

end Trivalent.Json
