/-!
# Coded literals

Literals as places in arrays: a literal is twice the number of its symbol, and one more if it is
negated.  Symbols count from zero.
-/

namespace Trivalent.Sat

/-- A coded literal. -/
abbrev Code : Type :=
  Nat

namespace Code

/-- The number of the symbol. -/
def place (code : Code) : Nat :=
  code / 2

/-- Whether the literal is negated. -/
def isNegative (code : Code) : Bool :=
  code % 2 == 1

/-- The literal that is false when this one is true. -/
def neg (code : Code) : Code :=
  if code.isNegative then code - 1 else code + 1

/-- The literal of a symbol. -/
def ofPlace (place : Nat) (positive : Bool) : Code :=
  if positive then 2 * place else 2 * place + 1

/-- A literal that is given as the number of a variable, from one on, or the negative of that. -/
def ofNumber (literal : Int) : Code :=
  ofPlace (literal.natAbs - 1) (0 < literal)

@[simp]
theorem place_ofPlace (number : Nat) (positive : Bool) :
    (ofPlace number positive).place = number := by
  unfold ofPlace place
  split <;> omega

@[simp]
theorem isNegative_ofPlace (number : Nat) (positive : Bool) :
    (ofPlace number positive).isNegative = !positive := by
  have parity : ofPlace number positive % 2 = if positive then 0 else 1 := by
    cases positive with
    | false =>
        show (2 * number + 1) % 2 = 1
        omega
    | true =>
        show 2 * number % 2 = 0
        omega
  unfold isNegative
  rw [parity]
  cases positive <;> rfl

@[simp]
theorem neg_ofPlace (number : Nat) (positive : Bool) :
    (ofPlace number positive).neg = ofPlace number !positive := by
  unfold neg
  rw [isNegative_ofPlace]
  cases positive <;> simp [ofPlace]

end Code

end Trivalent.Sat
