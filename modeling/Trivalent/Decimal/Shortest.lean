import Trivalent.Decimal.Binary

/-!
# Shortest decimals

The decimal with the fewest digits that rounds to a given binary number, of several the one nearest
to it, and its text.  The text is positional from 10^-5 to below 10^16, and has an exponent
otherwise.
-/

namespace Trivalent.Decimal

/-- A decimal number: a digit before the point, digits behind it, and a power of ten. -/
structure Shortest where
  /-- The digits, of which the first stands before the point. -/
  digits : List Char
  /-- The power of ten. -/
  exponent : Int
  deriving DecidableEq, Repr

/-- The power of ten of the first digit of a positive fraction. -/
def leadingExponent (numerator denominator : Nat) : Int :=
  if denominator ≤ numerator then ((Nat.toDigits 10 (numerator / denominator)).length : Int) - 1
  else
    let below := (denominator + numerator - 1) / numerator - 1
    Int.neg (Nat.toDigits 10 below).length

/-- A power of ten as a fraction. -/
def powerOfTen (exponent : Int) : Nat × Nat :=
  if 0 ≤ exponent then (Nat.pow 10 exponent.toNat, 1) else (1, Nat.pow 10 (-exponent).toNat)

namespace Binary

/-- The decimal of `count` digits that rounds to the number, if there is one: a neighbour of the
number on the grid of such decimals, the nearer one if both do. -/
def decimalOf? (x : Binary) (leading : Int) (count : Nat) : Option Nat :=
  let unit := powerOfTwo (x.exponent - 2)
  let step := powerOfTen (leading - count + 1)
  let a := unit.1 * step.2
  let b := step.1 * unit.2
  let middle := 4 * x.significand
  let low := middle - (if x.significand = Nat.pow 2 52 ∧ -1074 < x.exponent then 1 else 2)
  let high := middle + 2
  let fits := fun (k : Nat) =>
    if x.significand % 2 = 0 then decide (low * a ≤ k * b) && decide (k * b ≤ high * a)
    else decide (low * a < k * b) && decide (k * b < high * a)
  let down := middle * a / b
  let up := down + 1
  if fits down && fits up then
    let belowBy := middle * a - down * b
    let aboveBy := up * b - middle * a
    if belowBy < aboveBy then some down
    else if aboveBy < belowBy then some up
    else some (down + down % 2)
  else if fits down then some down
  else if fits up then some up
  else none

/-- The shortest decimal of a positive number. -/
def shortest (x : Binary) : Shortest :=
  let leading := leadingExponent x.fraction.1 x.fraction.2
  let found := (List.range 17).findSome? fun n => x.decimalOf? leading (n + 1)
  let digits := Nat.toDigits 10 (found.getD 0)
  let count := ((List.range 17).find? fun n => (x.decimalOf? leading (n + 1)).isSome).getD 0 + 1
  { digits := (digits.reverse.dropWhile (· = '0')).reverse
    exponent := leading + (digits.length : Int) - count }

end Binary

namespace Shortest

/-- The text of a decimal. -/
def text (d : Shortest) : List Char :=
  let zeros := fun n => List.replicate n '0'
  if -5 ≤ d.exponent ∧ d.exponent < 0 then
    '0' :: '.' :: zeros ((-d.exponent).toNat - 1) ++ d.digits
  else if 0 ≤ d.exponent ∧ d.exponent ≤ 15 then
    let whole := d.exponent.toNat + 1
    let behind := d.digits.drop whole
    d.digits.take whole ++ zeros (whole - d.digits.length) ++
      '.' :: (if behind.isEmpty then ['0'] else behind)
  else
    let point := if d.digits.length ≤ 1 then [] else '.' :: d.digits.drop 1
    let sign := if d.exponent < 0 then '-' else '+'
    d.digits.take 1 ++ point ++ 'e' :: sign :: Nat.toDigits 10 d.exponent.natAbs

end Shortest

/-- The text of a binary number: its shortest decimal, with a point or an exponent. -/
def Binary.text (x : Binary) : List Char :=
  if x.significand = 0 then ['0', '.', '0'] else x.shortest.text

end Trivalent.Decimal
