import Mathlib.Tactic.Common
import Trivalent.Encoding.State
import Trivalent.Proofs.Formula.Evaluation
import Trivalent.Proofs.Semantics.Run

/-!
# States in binary

The bits of a location, the most significant first, are read back as the location, and a location
formula is true exactly where the bits read back as its location.  The two bits of a predicate are
read back as its status in the same way.
-/

namespace Trivalent.Encoding

/-! ## Numbers of a fixed width -/

/-- The number of `width` bits, of which bit 0 is the most significant. -/
def number (width : Nat) (bits : Nat → Bool) : Nat :=
  (List.range width).foldl (fun n bit => 2 * n + (bits bit).toNat) 0

@[simp]
theorem number_zero (bits : Nat → Bool) : number 0 bits = 0 :=
  rfl

theorem number_succ (width : Nat) (bits : Nat → Bool) :
    number (width + 1) bits = 2 * number width bits + (bits width).toNat := by
  simp [number, List.range_succ]

theorem number_lt (width : Nat) (bits : Nat → Bool) : number width bits < Nat.pow 2 width := by
  induction width with
  | zero => exact Nat.one_pos
  | succ width ih =>
      have bit := Bool.toNat_lt (bits width)
      rw [Nat.pow_eq] at ih ⊢
      rw [number_succ, Nat.pow_succ]
      omega

/-- Every bit of a number is found again in it. -/
theorem testBit_number {width bit : Nat} (bits : Nat → Bool) (inside : bit < width) :
    locationBit width (number width bits) bit = bits bit := by
  induction width with
  | zero => omega
  | succ width ih =>
      unfold locationBit at ih ⊢
      rcases Nat.lt_or_eq_of_le (Nat.le_of_lt_succ inside) with before | rfl
      · obtain ⟨place, above⟩ : ∃ place, width + 1 - 1 - bit = place + 1 := ⟨width - 1 - bit, by omega⟩
        have halved : (2 * number width bits + (bits width).toNat) / 2 = number width bits := by
          have := Bool.toNat_lt (bits width)
          omega
        rw [above, number_succ, Nat.testBit_succ, halved, ← ih before]
        congr 1
        omega
      · rw [number_succ]
        cases bits bit <;> simp [Nat.testBit_zero]

theorem number_congr {width : Nat} {bits bits' : Nat → Bool}
    (agree : ∀ bit < width, bits bit = bits' bit) : number width bits = number width bits' := by
  induction width with
  | zero => rfl
  | succ width ih =>
      rw [number_succ, number_succ, agree width (Nat.lt_succ_self width),
        ih fun bit inside => agree bit (Nat.lt_succ_of_lt inside)]

/-- Numbers of one width are equal exactly if all their bits are. -/
theorem number_eq_iff {width : Nat} {bits bits' : Nat → Bool} :
    number width bits = number width bits' ↔ ∀ bit < width, bits bit = bits' bit := by
  constructor
  · intro equal bit inside
    rw [← testBit_number bits inside, equal, testBit_number bits' inside]
  · exact number_congr

/-- A number that fits is the number of its bits. -/
theorem number_locationBit {width n : Nat} (fits : n < Nat.pow 2 width) :
    number width (locationBit width n) = n := by
  induction width generalizing n with
  | zero =>
      have : n < 1 := fits
      simp only [number_zero]
      omega
  | succ width ih =>
      have half : n / 2 < Nat.pow 2 width := by
        have : n < 2 * Nat.pow 2 width := by simpa [Nat.pow_succ, Nat.mul_comm] using fits
        omega
      have upper : number width (locationBit (width + 1) n) = n / 2 := by
        rw [← ih half]
        apply number_congr
        intro bit inside
        have place : width + 1 - 1 - bit = width - 1 - bit + 1 := by omega
        rw [locationBit, locationBit, place, Nat.testBit_succ]
      rw [number_succ, upper]
      have lowest : (locationBit (width + 1) n width).toNat = n % 2 := by
        rcases Nat.mod_two_eq_zero_or_one n with even | odd
        · simp [locationBit, even]
        · simp [locationBit, odd]
      omega

/-! ## Locations -/

theorem shiftRight_eq_zero_iff {n width : Nat} : n >>> width = 0 ↔ n < Nat.pow 2 width := by
  rw [Nat.shiftRight_eq_div_pow, Nat.pow_eq, Nat.div_eq_zero_iff_lt (Nat.two_pow_pos width)]

/-- A location formula is true exactly where its bits read back as the location. -/
theorem eval_locationFormula (v : Valuation) (width process location step : Nat) (shadow : Bool) :
    (locationFormula width process location step shadow).eval v =
      decide (number width (fun bit => v (.location process bit step shadow)) = location) := by
  unfold locationFormula
  split
  · rename_i tooLarge
    rw [Ne, shiftRight_eq_zero_iff] at tooLarge
    have small := number_lt width fun bit => v (.location process bit step shadow)
    symm
    simp only [Formula.eval_constant, decide_eq_false_iff_not]
    rintro rfl
    exact tooLarge small
  · rename_i fits
    rw [Ne, not_not, shiftRight_eq_zero_iff] at fits
    rw [Formula.eval_conj, Bool.eq_iff_iff, List.all_eq_true, decide_eq_true_iff]
    have bits : number width (fun bit => v (.location process bit step shadow)) = location ↔
        ∀ bit < width, v (.location process bit step shadow) = locationBit width location bit := by
      conv_lhs => rw [← number_locationBit fits]
      exact number_eq_iff
    rw [bits]
    simp only [List.mem_map, List.mem_range, forall_exists_index, and_imp,
      forall_apply_eq_imp_iff₂]
    refine forall₂_congr fun bit _ => ?_
    split <;> simp_all

/-! ## Statuses -/

/-- The status that two bits stand for. -/
def statusOfBits (unknown truth : Bool) : Status :=
  if unknown then .unknown else if truth then .yes else .no

theorem decodeStatus_eq_statusOfBits (v : Valuation) (predicate step : Nat) :
    decodeStatus v predicate step =
      statusOfBits (v (.predicate predicate .unknown step false))
        (v (.predicate predicate .truth step false)) :=
  rfl

/-- A status formula is true exactly where its bits stand for the status. -/
theorem eval_statusFormula (v : Valuation) (predicate : Nat) (status : Status) (step : Nat)
    (shadow : Bool) :
    (statusFormula predicate status step shadow).eval v =
      decide (statusOfBits (v (.predicate predicate .unknown step shadow))
        (v (.predicate predicate .truth step shadow)) = status) := by
  cases unknown : v (.predicate predicate .unknown step shadow) <;>
    cases truth : v (.predicate predicate .truth step shadow) <;>
      cases status <;> simp [statusFormula, statusOfBits, unknown, truth]

end Trivalent.Encoding

namespace Trivalent

/-! ## Reading a valuation -/

/-- The number of bits for the location of a process. -/
def System.widthOf (system : System) (p : Nat) : Nat :=
  match system.processes[p]? with
  | none => 0
  | some process => process.width

/-- The state that a valuation gives a step, in the atoms of the state itself or of its shadow. -/
def Valuation.readAt (v : Valuation) (system : System) (shadow : Bool) (step : Nat) : State where
  location p := Encoding.number (system.widthOf p) fun bit => v (.location p bit step shadow)
  status id := Encoding.statusOfBits (v (.predicate id .unknown step shadow))
    (v (.predicate id .truth step shadow))

/-- The state that a valuation gives a step. -/
abbrev Valuation.stateAt (v : Valuation) (system : System) (step : Nat) : State :=
  v.readAt system false step

/-- The recorded state that a valuation gives a step. -/
abbrev Valuation.shadowAt (v : Valuation) (system : System) (step : Nat) : State :=
  v.readAt system true step

/-- The valuation in which every atom has the value that it has `steps` steps later. -/
def Valuation.later (v : Valuation) (steps : Nat) : Valuation := fun a =>
  v (a.shift steps)

theorem Valuation.readAt_later (v : Valuation) (system : System) (shadow : Bool)
    (steps step : Nat) :
    (v.later steps).readAt system shadow step = v.readAt system shadow (step + steps) :=
  rfl

end Trivalent
