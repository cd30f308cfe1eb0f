import Trivalent.Word

/-!
# Numerals

Decimal numerals for words: the digits of a number, and the number of a run of digits.
-/

namespace Trivalent.Numeral

/-- The ASCII digits. -/
def isDigit (c : Char) : Bool :=
  '0' ≤ c && c ≤ '9'

/-- The decimal digits of a number, without leading zeros. -/
def digits (n : Nat) : List Char :=
  Nat.toDigits 10 n

/-- The number that a run of digits stands for. -/
def value (text : List Char) : Nat :=
  text.foldl (fun n c => 10 * n + (c.toNat - '0'.toNat)) 0

/-- A nonempty run of digits that stands for a word. -/
def unsigned? (text : List Char) : Option Nat :=
  if text.isEmpty || !text.all isDigit then none
  else if value text < Word.limit then some (value text)
  else none

/-- A numeral for a word that may carry a plus sign. -/
def word? : List Char → Option Nat
  | '+' :: rest => unsigned? rest
  | text => unsigned? text

theorem lt_limit_of_unsigned? {text : List Char} {n : Nat} (read : unsigned? text = some n) :
    n < Word.limit := by
  unfold unsigned? at read
  split at read
  · contradiction
  · split at read
    · cases read
      assumption
    · contradiction

end Trivalent.Numeral
