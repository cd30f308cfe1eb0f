/-!
# Words

Process numbers, locations, predicate ids and timesteps are words of 64 bits.  They are kept as
natural numbers, so that arithmetic on them is arithmetic; an operation whose exact result is not
a word is a `Fault`, and so is a position outside a list.
-/

namespace Trivalent

/-- A request that has no answer because a number leaves its range. -/
inductive Fault where
  /-- A sum is not a word. -/
  | addOverflow
  /-- A word is shifted by its whole width or more. -/
  | shiftOverflow
  /-- Position `index` of a list of `length` entries. -/
  | outOfBounds (length index : Nat)
  /-- A search is asked to start at a step other than the one it has reached. -/
  | startMismatch (requested reached : Nat)
  /-- A search is asked for a depth before its own start. -/
  | cannotShrink
  deriving DecidableEq, Repr

/-- The wording of a fault. -/
def Fault.message : Fault → String
  | .addOverflow => "attempt to add with overflow"
  | .shiftOverflow => "attempt to shift right with overflow"
  | .outOfBounds length index =>
      s!"index out of bounds: the len is {length} but the index is {index}"
  | .startMismatch requested reached =>
      "assertion `left == right` failed: cannot start from a timestep the run has not reached\n" ++
        s!"  left: {requested}\n right: {reached}"
  | .cannotShrink => "cannot shrink the run"

namespace Word

/-- The number of bits of a word. -/
def width : Nat := 64

/-- The first natural number that is not a word. -/
def limit : Nat := Nat.pow 2 width

/-- The sum of two words, if it is a word. -/
def add (a b : Nat) : Except Fault Nat :=
  if a + b < limit then .ok (a + b) else .error .addOverflow

/-- A word without its `amount` low bits; the amount stays below the width. -/
def shiftRight (a amount : Nat) : Except Fault Nat :=
  if amount < width then .ok (a >>> amount) else .error .shiftOverflow

theorem add_eq_ok_iff {a b c : Nat} : add a b = .ok c ↔ a + b = c ∧ a + b < limit := by
  unfold add
  split
  · simp_all
  · simp only [reduceCtorEq, false_iff, not_and]
    intro _
    assumption

theorem shiftRight_eq_ok_iff {a amount b : Nat} :
    shiftRight a amount = .ok b ↔ a >>> amount = b ∧ amount < width := by
  unfold shiftRight
  split <;> simp_all

/-- The number of bits that tell `count` things apart, one at least. -/
def bitsFor (count : Nat) : Nat :=
  if count ≤ 1 then 1 else Nat.log2 (count - 1) + 1

theorem one_le_bitsFor (count : Nat) : 1 ≤ bitsFor count := by
  unfold bitsFor
  split <;> omega

/-- Every one of the `count` things has a name of `bitsFor count` bits. -/
theorem le_two_pow_bitsFor (count : Nat) : count ≤ Nat.pow 2 (bitsFor count) := by
  rw [Nat.pow_eq]
  unfold bitsFor
  split
  · omega
  · have := Nat.lt_log2_self (n := count - 1)
    omega

end Word

/-- The entry at a position, or the fault of asking for it. -/
def entryAt {α : Type} (entries : List α) (index : Nat) : Except Fault α :=
  match entries[index]? with
  | some entry => .ok entry
  | none => .error (.outOfBounds entries.length index)

end Trivalent
