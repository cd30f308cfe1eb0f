import Mathlib.Order.Bounds.Basic
import Trivalent.Proofs.Encoding.State
import Trivalent.Proofs.Formula.Denotation
import Trivalent.Proofs.System.Accepted

/-!
# Locations survive their encoding

The locations of a process have names of the least possible number of bits, one at least.  A
location formula is true exactly where the bits of its side read back as the location, so on either
side, that of the states and that of their shadows, every valuation puts the process at one location,
and any location that has a name can be written without touching another atom.
-/

namespace Trivalent

/-- The valuation in which every state is what is recorded in its shadow. -/
def Valuation.recalled (v : Valuation) : Valuation := fun a =>
  v a.shadowed

/-- The valuation as it is read on a side: that of the states, or that of their shadows. -/
def Valuation.onSide (v : Valuation) (shadow : Bool) : Valuation :=
  if shadow then v.recalled else v

theorem Valuation.onSide_location (v : Valuation) (p bit step : Nat) (shadow : Bool) :
    v.onSide shadow (.location p bit step false) = v (.location p bit step shadow) := by
  cases shadow <;> rfl

namespace System

variable {system : System} {p : Nat} {process : Process}

theorem width_of_found (found : system.processes[p]? = some process)
    (fits : process.extent ≤ Nat.pow 2 63) : system.width p = .ok process.width := by
  rw [width, System.process, entryAt, found]
  exact Process.widthWord_of_fits fits

end System

namespace Encoding

variable {system : System} {p width : Nat}

/-- Bits by which the locations of a process are written and read on a side. -/
structure EncodesLocations (system : System) (p width : Nat) (shadow : Bool) : Prop where
  /-- A location formula is true exactly where the location is read back. -/
  denotes : ∀ place step, Denotes (location system p place step shadow) fun v =>
    locationOf system (v.onSide shadow) p step = .ok place
  /-- Of the locations that have a name exactly one is true. -/
  existsUnique : ∀ v step, ∃! place, place < Nat.pow 2 width ∧
    Holds v (location system p place step shadow)
  /-- A location without a name is nowhere. -/
  unfit : ∀ place, Nat.pow 2 width ≤ place → ∀ v step,
    ¬ Holds v (location system p place step shadow)
  /-- No other atoms matter than the bits of the process at the step and on the side. -/
  depends : ∀ place step (v v' : Valuation),
    (∀ bit < width, v (.location p bit step shadow) = v' (.location p bit step shadow)) →
      (Holds v (location system p place step shadow) ↔
        Holds v' (location system p place step shadow))
  /-- A location that has a name can be written whatever the other atoms are. -/
  writable : ∀ place < Nat.pow 2 width, ∀ (v : Valuation) step, ∃ v' : Valuation,
    (∀ a, (∀ bit < width, a ≠ .location p bit step shadow) → v' a = v a) ∧
      Holds v' (location system p place step shadow)

/-! ## Writing a location -/

/-- The valuation with the bits of a location written at a step and on a side. -/
def written (v : Valuation) (width p place step : Nat) (shadow : Bool) : Valuation
  | .location q bit t side =>
      if q = p ∧ bit < width ∧ t = step ∧ side = shadow then locationBit width place bit
      else v (.location q bit t side)
  | a => v a

theorem written_location (v : Valuation) {bit : Nat} (inside : bit < width) (place step : Nat)
    (shadow : Bool) :
    written v width p place step shadow (.location p bit step shadow) =
      locationBit width place bit := by
  simp [written, inside]

theorem written_of_ne (v : Valuation) (place : Nat) {step : Nat} {shadow : Bool} {a : Atom}
    (other : ∀ bit < width, a ≠ .location p bit step shadow) :
    written v width p place step shadow a = v a := by
  cases a with
  | location q bit t side =>
      refine if_neg ?_
      rintro ⟨rfl, inside, rfl, rfl⟩
      exact other bit inside rfl
  | _ => rfl

/-! ## The locations of a process -/

/-- The location that the bits of a process give on a side. -/
def placeOf (width p : Nat) (v : Valuation) (step : Nat) (shadow : Bool) : Nat :=
  number width fun bit => v (.location p bit step shadow)

theorem location_of_width (found : system.width p = .ok width) (short : width < Word.width)
    (place step : Nat) (shadow : Bool) :
    location system p place step shadow = .ok (locationFormula width p place step shadow) := by
  have shifted : Word.shiftRight place width = .ok (place >>> width) :=
    Word.shiftRight_eq_ok_iff.mpr ⟨rfl, short⟩
  rw [location, found]
  simp only [bind, Except.bind, shifted]
  rfl

theorem locationOf_of_width (found : system.width p = .ok width) (v : Valuation) (step : Nat)
    (shadow : Bool) :
    locationOf system (v.onSide shadow) p step = .ok (placeOf width p v step shadow) := by
  rw [locationOf, found]
  simp only [bind, Except.bind, decodeLocation, Valuation.onSide_location]
  rfl

theorem holds_location_iff (found : system.width p = .ok width) (short : width < Word.width)
    {v : Valuation} {place step : Nat} {shadow : Bool} :
    Holds v (location system p place step shadow) ↔ placeOf width p v step shadow = place := by
  rw [location_of_width found short, holds_ok, eval_locationFormula, decide_eq_true_iff]
  rfl

/-- The bits of a process encode its locations on both sides. -/
theorem encodesLocations_of_width (found : system.width p = .ok width)
    (short : width < Word.width) (shadow : Bool) : EncodesLocations system p width shadow where
  denotes place step := by
    have computed := location_of_width found short place step shadow
    refine (denotes_holds computed).congr fun v => ?_
    rw [holds_location_iff found short, locationOf_of_width found, Except.ok.injEq]
  existsUnique v step := by
    refine ⟨placeOf width p v step shadow, ⟨number_lt width _, ?_⟩, ?_⟩
    · exact (holds_location_iff found short).mpr rfl
    · rintro place ⟨_, holds⟩
      exact ((holds_location_iff found short).mp holds).symm
  unfit place large v step holds := by
    have small : placeOf width p v step shadow < Nat.pow 2 width := number_lt width _
    rw [(holds_location_iff found short).mp holds] at small
    exact Nat.not_le_of_lt small large
  depends place step v v' agree := by
    have same : placeOf width p v step shadow = placeOf width p v' step shadow :=
      number_congr agree
    rw [holds_location_iff found short, holds_location_iff found short, same]
  writable place small v step := by
    refine ⟨written v width p place step shadow, fun a => written_of_ne v place, ?_⟩
    rw [holds_location_iff found short, placeOf]
    calc number width _ = number width (locationBit width place) :=
          number_congr fun bit inside => written_location v inside place step shadow
      _ = place := number_locationBit small

/-- The locations of a process survive their encoding: the width is the least number of bits, one at
least, that names all of them, more locations do not take fewer bits, every location that a
transition names has a name, and on either side the bits of the process encode its locations. -/
theorem locations_survive_encoding {process : Process} {count : Nat}
    (found : system.processes[p]? = some process) (counted : process.locationCount = .ok count)
    (fits : count ≤ Nat.pow 2 63) :
    system.width p = .ok (Word.bitsFor count) ∧
      IsLeast {bits | 1 ≤ bits ∧ count ≤ Nat.pow 2 bits} (Word.bitsFor count) ∧
      (∀ fewer more, fewer ≤ more → Word.bitsFor fewer ≤ Word.bitsFor more) ∧
      (∀ transition ∈ process.transitions,
        transition.source < Nat.pow 2 (Word.bitsFor count) ∧
          transition.destination < Nat.pow 2 (Word.bitsFor count)) ∧
      ∀ shadow, EncodesLocations system p (Word.bitsFor count) shadow := by
  obtain ⟨rfl, _⟩ := Process.locationCount_eq_ok_iff.mp counted
  have wide : system.width p = .ok process.width := System.width_of_found found fits
  have enough : process.extent ≤ Nat.pow 2 (Word.bitsFor process.extent) :=
    process.extent_le_two_pow_width
  refine ⟨wide, ⟨⟨Word.one_le_bitsFor _, enough⟩, ?_⟩, fun _ _ => Word.bitsFor_mono, ?_, ?_⟩
  · rintro bits ⟨positive, named⟩
    exact (Word.bitsFor_le_iff positive).mpr named
  · intro transition listed
    have source := System.lt_extent_of_named listed (Nat.le_max_left _ _)
    have destination := System.lt_extent_of_named listed (Nat.le_max_right _ _)
    exact ⟨Nat.lt_of_lt_of_le source enough, Nat.lt_of_lt_of_le destination enough⟩
  · exact encodesLocations_of_width wide (Word.bitsFor_lt_width fits)

/-- A process that may go to the last location that has a name: 63 bits are the most. -/
theorem locations_survive_encoding_of_wide :
    let process : Process := ⟨0, [⟨0, 9223372036854775807, .always, []⟩]⟩
    let system : System := ⟨.empty, .empty, [process]⟩
    process.locationCount = .ok 9223372036854775808 ∧ system.width 0 = .ok 63 ∧
      ∀ shadow, EncodesLocations system 0 63 shadow := by
  intro process system
  have counted : process.locationCount = .ok 9223372036854775808 := by decide
  have width : Word.bitsFor 9223372036854775808 = 63 := by decide
  have found : system.processes[0]? = some process := rfl
  have survives := locations_survive_encoding found counted (by decide)
  rw [width] at survives
  exact ⟨counted, survives.1, survives.2.2.2.2⟩

end Encoding

end Trivalent
