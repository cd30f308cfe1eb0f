import Trivalent.Feedback
import Trivalent.Proofs.Witness.Path

/-!
# Patterns of witnesses

What the formula of a witness fixes is the pattern of the witness: the locations at every step and
the statuses that are known there.  Another witness repeats it if its first states are at the same
locations and know all of these statuses, and so maybe more.
-/

namespace Trivalent

namespace WitnessStep

/-- The statuses that are known in a state, by the names of their predicates. -/
def known (s : WitnessStep) : List (String × Status) :=
  s.predicates.entries.filter fun entry => entry.2 ≠ .unknown

/-- The locations in a state and the statuses that are known there. -/
def pattern (s : WitnessStep) : List Nat × List (String × Status) :=
  (s.locations, s.known)

/-- A state is at the locations of an earlier one and knows all that the earlier one does. -/
structure Extends (earlier later : WitnessStep) : Prop where
  locations : later.locations = earlier.locations
  known : ∀ entry ∈ earlier.known, entry ∈ later.known

theorem mem_known_iff {s : WitnessStep} {name : String} {status : Status} :
    (name, status) ∈ s.known ↔ (name, status) ∈ s.predicates.entries ∧ status ≠ .unknown := by
  simp [known]

theorem extends_of_pattern_eq {earlier later : WitnessStep}
    (same : earlier.pattern = later.pattern) : earlier.Extends later := by
  obtain ⟨locations, known⟩ := Prod.mk.inj same
  constructor
  · exact locations.symm
  · intro entry member
    rwa [← known]

variable {system : System} {fairness : Bool} {u v : Valuation} {step : Nat}

/-- A state that is read extends another one exactly if it is covered by it. -/
theorem extends_read_iff :
    (read system fairness u step).Extends (read system fairness v step) ↔
      System.Covers system system (u.stateAt system step) (v.stateAt system step) := by
  constructor
  · rintro ⟨locations, known⟩
    constructor
    · intro p inside _
      exact (List.map_inj_left.mp locations p (List.mem_range.mpr inside)).symm
    · intro name i j isFirst isSecond
      obtain rfl := Option.some.inj (isFirst.symm.trans isSecond)
      by_cases unknown : (u.stateAt system step).status i = .unknown
      · exact .inl unknown
      · have entry := (NameTable.get?_eq_some_iff _).mp isFirst
        have shown := known (name, (u.stateAt system step).status i)
          (mem_known_iff.mpr ⟨NameTable.mem_mapValues.mpr ⟨i, entry, rfl⟩, unknown⟩)
        obtain ⟨j, entryToo, same⟩ := NameTable.mem_mapValues.mp (mem_known_iff.mp shown).1
        have isSecond := (NameTable.get?_eq_some_iff _).mpr entryToo
        obtain rfl := Option.some.inj (isFirst.symm.trans isSecond)
        exact .inr same.symm
  · intro covers
    constructor
    · apply List.map_inj_left.mpr
      intro p member
      have inside := List.mem_range.mp member
      exact (covers.location p inside inside).symm
    · rintro ⟨name, status⟩ member
      obtain ⟨listed, isKnown⟩ := mem_known_iff.mp member
      obtain ⟨i, entry, rfl⟩ := NameTable.mem_mapValues.mp listed
      have isId := (NameTable.get?_eq_some_iff _).mpr entry
      have same := (covers.status name i i isId isId).resolve_left isKnown
      exact mem_known_iff.mpr ⟨NameTable.mem_mapValues.mpr ⟨i, entry, same.symm⟩, isKnown⟩

end WitnessStep

namespace Feedback

/-- The depth of a violation and the patterns of the states up to there. -/
def pattern (feedback : Feedback) : Nat × List (List Nat × List (String × Status)) :=
  (feedback.step, feedback.witness.map WitnessStep.pattern)

/-- The witness of a violation, cut to the depth of an earlier one, is at the same locations and
knows all that the earlier witness does. -/
def Repeats (earlier later : Feedback) : Prop :=
  List.Forall₂ WitnessStep.Extends earlier.witness (later.witness.take (earlier.step + 1))

variable {system : System} {fairness : Bool} {u v : Valuation} {earlier later : Feedback}

/-- Of violations that are read, a later one repeats an earlier one if and only if it stays on its
path. -/
theorem repeats_iff (fits : system.Fits)
    (decoded : Witness.decode system fairness u earlier.step = .ok earlier.witness)
    (decodedToo : Witness.decode system fairness v later.step = .ok later.witness)
    (notAfter : earlier.step ≤ later.step) :
    earlier.Repeats later ↔ ∀ t ≤ earlier.step,
      System.Covers system system (u.stateAt system t) (v.stateAt system t) := by
  rw [Witness.decode_of_fits fits] at decoded decodedToo
  rw [Repeats, ← Except.ok.inj decoded, ← Except.ok.inj decodedToo, ← List.map_take,
    List.take_range, Nat.min_eq_left (Nat.succ_le_succ notAfter), List.forall₂_map_left_iff,
    List.forall₂_map_right_iff, List.forall₂_same]
  simp only [List.mem_range, Nat.lt_succ_iff, WitnessStep.extends_read_iff]

/-- A violation that does not repeat another one has another pattern. -/
theorem pattern_ne_of_not_repeats (whole : later.witness.length = later.step + 1)
    (new : ¬earlier.Repeats later) : earlier.pattern ≠ later.pattern := by
  intro same
  obtain ⟨step, patterns⟩ := Prod.mk.inj same
  apply new
  rw [Repeats, step, ← whole, List.take_length]
  have equal : List.Forall₂ Eq (earlier.witness.map WitnessStep.pattern)
      (later.witness.map WitnessStep.pattern) := by
    rw [patterns, List.forall₂_same]
    exact fun _ _ => rfl
  rw [List.forall₂_map_left_iff, List.forall₂_map_right_iff] at equal
  exact equal.imp fun _ _ => WitnessStep.extends_of_pattern_eq

end Feedback

end Trivalent
