/-!
# Binary floating point

Nonnegative numbers with a significand of 53 bits, and rounding to them: to the nearest, a tie to
the even significand.  A decimal number with an exponent is read with one rounding for its digits
and one for every scaling by a power of ten.  A sum is rounded once.
-/

namespace Trivalent.Decimal

/-- The number `significand * 2 ^ exponent`. -/
structure Binary where
  /-- The significand, below `2 ^ 53`. -/
  significand : Nat
  /-- The exponent, at least -1074. -/
  exponent : Int
  deriving DecidableEq, Repr

namespace Binary

/-- A power of two as a fraction. -/
def powerOfTwo (exponent : Int) : Nat × Nat :=
  if 0 ≤ exponent then (Nat.pow 2 exponent.toNat, 1) else (1, Nat.pow 2 (-exponent).toNat)

/-- The number as a fraction. -/
def fraction (x : Binary) : Nat × Nat :=
  let power := powerOfTwo x.exponent
  (x.significand * power.1, power.2)

/-- A fraction rounded to a natural number, a tie to the even one. -/
def roundEven (numerator denominator : Nat) : Nat :=
  let quotient := numerator / denominator
  let twice := 2 * (numerator % denominator)
  if twice < denominator then quotient
  else if denominator < twice then quotient + 1
  else quotient + quotient % 2

/-- The nearest number to a fraction. -/
def nearest (numerator denominator : Nat) : Binary :=
  if numerator = 0 then ⟨0, 0⟩
  else
    let estimate : Int := Nat.log2 numerator - Nat.log2 denominator - 52
    let below := fun (exponent : Int) (bound : Nat) =>
      let power := powerOfTwo exponent
      decide (numerator * power.2 < bound * (denominator * power.1))
    let fitted := if below estimate (Nat.pow 2 52) then estimate - 1 else estimate
    let exponent := max fitted (-1074)
    let power := powerOfTwo exponent
    let significand := roundEven (numerator * power.2) (denominator * power.1)
    if significand = Nat.pow 2 53 then ⟨Nat.pow 2 52, exponent + 1⟩ else ⟨significand, exponent⟩

/-- The nearest number to a fraction, unless that is out of range. -/
def ofFraction? (numerator denominator : Nat) : Option Binary :=
  let rounded := nearest numerator denominator
  if 971 < rounded.exponent then none else some rounded

/-- The sum of two numbers, rounded. -/
def add (x y : Binary) : Binary :=
  nearest (x.fraction.1 * y.fraction.2 + y.fraction.1 * x.fraction.2)
    (x.fraction.2 * y.fraction.2)

/-- How far a number is above another one, rounded; nothing if it is not. -/
def excess (x y : Binary) : Binary :=
  nearest (x.fraction.1 * y.fraction.2 - y.fraction.1 * x.fraction.2)
    (x.fraction.2 * y.fraction.2)

/-- The number in so many units, rounded to a whole number of them. -/
def inUnits (x : Binary) (units : Nat) : Nat :=
  roundEven (x.fraction.1 * units) x.fraction.2

/-- The product with a fraction, rounded. -/
def scale? (x : Binary) (numerator denominator : Nat) : Option Binary :=
  ofFraction? (x.fraction.1 * numerator) (x.fraction.2 * denominator)

/-- The power of ten nearest to `10 ^ exponent`. -/
def powerOfTen? (exponent : Nat) : Option Binary :=
  ofFraction? (Nat.pow 10 exponent) 1

/-- The number multiplied by `10 ^ places`, which has to stay in range. -/
def raise? (x : Binary) (places : Nat) : Option Binary :=
  if x.significand = 0 then some x
  else if 308 < places then none
  else do
    let power ← powerOfTen? places
    x.scale? power.fraction.1 power.fraction.2

/-- The number divided by `10 ^ places`, rounded once. -/
def divide? (x : Binary) (places : Nat) : Option Binary := do
  let power ← powerOfTen? places
  x.scale? power.fraction.2 power.fraction.1

/-- The number divided `rounds` times by `10 ^ 308`. -/
def divideRounds? (x : Binary) : Nat → Option Binary
  | 0 => some x
  | rounds + 1 =>
      if x.significand = 0 then some x
      else do
        let smaller ← x.divide? 308
        divideRounds? smaller rounds

/-- The number divided by `10 ^ places`, at most 308 places at a time. -/
def lower? (x : Binary) (places : Nat) : Option Binary := do
  let rounds := (places - 1) / 308
  let smaller ← x.divideRounds? rounds
  smaller.divide? (places - 308 * rounds)

/-- The number of a decimal notation: digits and the power of ten they are multiplied by. -/
def ofDecimal? (digits : Nat) (exponent : Int) : Option Binary := do
  let x ← ofFraction? digits 1
  if 0 ≤ exponent then x.raise? exponent.toNat else x.lower? (-exponent).toNat

end Binary

end Trivalent.Decimal
