import Trivalent.Proofs.Task.Formulas
import Trivalent.Witness

/-!
# Paths of witnesses

A witness shows the states that a valuation gives the steps.  Its formula in a system says that the
states of the witness cover those of the system: it fixes the locations of the processes that both
systems have and the statuses that the witness knows.
-/

namespace Trivalent

namespace NameTable

variable {α : Type}

theorem mem_mapValues {β : Type} {f : α → β} {table : NameTable α} {name : String} {value : β} :
    (name, value) ∈ (table.mapValues f).entries ↔
      ∃ old, (name, old) ∈ table.entries ∧ f old = value := by
  simp only [mapValues, List.mem_map, Prod.mk.injEq]
  constructor
  · rintro ⟨entry, member, rfl, same⟩
    exact ⟨entry.2, member, same⟩
  · rintro ⟨old, member, same⟩
    exact ⟨_, member, rfl, same⟩

theorem get?_mapValues {β : Type} {f : α → β} {table : NameTable α} {name : String} {value : α}
    (found : table.get? name = some value) :
    (table.mapValues f).get? name = some (f value) := by
  rw [get?_eq_some_iff] at found ⊢
  exact mem_mapValues.mpr ⟨value, found, rfl⟩

end NameTable

namespace WitnessStep

/-- The state that a valuation gives a step of a system, as it is shown. -/
def read (system : System) (fairness : Bool) (v : Valuation) (step : Nat) : WitnessStep where
  step := step
  locations := (List.range system.processes.length).map (v.stateAt system step).location
  predicates := system.predicates.mapValues (v.stateAt system step).status
  fairness :=
    if fairness then some ((List.range system.processes.length).map fun p => v (.fair p step))
    else none
  record := v (.record step)
  recorded := v (.recorded step)

/-- What is read back at a step is the state of the step. -/
theorem decode_of_fits {system : System} (fits : system.Fits) (fairness : Bool) (v : Valuation)
    (step : Nat) : decode system fairness v step = .ok (read system fairness v step) := by
  have each : ∀ p ∈ List.range system.processes.length,
      Encoding.locationOf system v p step = .ok ((v.stateAt system step).location p) :=
    fun _ inside => Encoding.locationOf_of_fits fits (List.mem_range.mp inside) v step
  rw [decode, mapM_eq_ok_map each]
  rfl

theorem mem_zipIdx_map_range {α : Type} {f : Nat → α} {n p : Nat} {a : α} :
    (a, p) ∈ ((List.range n).map f).zipIdx ↔ p < n ∧ f p = a := by
  rw [List.mem_zipIdx_iff_getElem?, List.getElem?_map, Option.map_eq_some_iff]
  constructor
  · rintro ⟨p', found, same⟩
    rcases List.getElem?_eq_some_iff.mp found with ⟨inside, place⟩
    rw [List.length_range] at inside
    rw [List.getElem_range] at place
    obtain rfl : p = p' := place
    exact ⟨inside, same⟩
  · rintro ⟨inside, same⟩
    exact ⟨p, List.getElem?_range inside, same⟩

variable {abstract concrete : System} {u v : Valuation} {fairness : Bool} {step : Nat}

/-- The formulas of a state are those of the locations of the processes that a system has and of the
statuses that are known. -/
theorem mem_pins_iff {system : System} {s : WitnessStep} {f : Except Fault Formula} :
    f ∈ s.pins system ↔
      (∃ l p, (l, p) ∈ s.locations.zipIdx ∧ p < system.processes.length ∧
        f = Encoding.location system p l s.step false) ∨
      ∃ name status id, (name, status) ∈ s.predicates.entries ∧ status ≠ .unknown ∧
        system.predicateId? name = some id ∧
          f = .ok (Encoding.statusFormula id status s.step false) := by
  unfold pins
  rw [List.mem_append]
  apply or_congr
  · simp only [List.mem_map, List.mem_filter]
    constructor
    · rintro ⟨⟨l, p⟩, ⟨listed, inside⟩, rfl⟩
      exact ⟨l, p, listed, of_decide_eq_true inside, rfl⟩
    · rintro ⟨l, p, listed, inside, rfl⟩
      exact ⟨(l, p), ⟨listed, decide_eq_true inside⟩, rfl⟩
  · rw [List.mem_filterMap]
    constructor
    · rintro ⟨⟨name, status⟩, listed, pinned⟩
      dsimp only at pinned
      by_cases unknown : status = .unknown
      · simp [unknown] at pinned
      · rw [if_neg unknown] at pinned
        rcases Option.map_eq_some_iff.mp pinned with ⟨id, isId, rfl⟩
        exact ⟨name, status, id, listed, unknown, isId, rfl⟩
    · rintro ⟨name, status, id, listed, known, isId, rfl⟩
      refine ⟨(name, status), listed, ?_⟩
      dsimp only
      rw [if_neg known, isId, Option.map_some]

theorem exists_of_mem_pins {system : System} (fits : system.Fits) {s : WitnessStep} :
    ∀ f ∈ s.pins system, ∃ g, f = .ok g := by
  intro f member
  rcases mem_pins_iff.mp member with ⟨l, p, _, inside, rfl⟩ | ⟨_, _, _, _, _, _, rfl⟩
  · exact ⟨_, Encoding.location_of_fits fits inside l s.step false⟩
  · exact ⟨_, rfl⟩

/-- What a witness says about a state is that it covers the state. -/
theorem forall_pins_iff (fits : concrete.Fits) :
    (∀ f ∈ (read abstract fairness u step).pins concrete, Holds v f) ↔
      System.Covers abstract concrete (u.stateAt abstract step) (v.stateAt concrete step) := by
  have located : ∀ p l, p < concrete.processes.length →
      (Holds v (Encoding.location concrete p l step false) ↔
        (v.stateAt concrete step).location p = l) := by
    intro p l inside
    exact (Encoding.denotes_location fits inside l step false).holds_iff v
  have known : ∀ id status, Holds v (.ok (Encoding.statusFormula id status step false)) ↔
      (v.stateAt concrete step).status id = status := by
    intro id status
    rw [holds_ok]
    exact Encoding.statusFormula_expresses concrete id status step false v
  constructor
  · intro all
    constructor
    · intro p insideFirst insideSecond
      symm
      apply (located p _ insideSecond).mp
      apply all
      exact mem_pins_iff.mpr (.inl ⟨_, p, mem_zipIdx_map_range.mpr ⟨insideFirst, rfl⟩,
        insideSecond, rfl⟩)
    · intro name i j isFirst isSecond
      by_cases unknown : (u.stateAt abstract step).status i = .unknown
      · exact .inl unknown
      · right
        symm
        apply (known j _).mp
        apply all
        have entry := (NameTable.get?_eq_some_iff _).mp isFirst
        exact mem_pins_iff.mpr (.inr ⟨name, _, j, NameTable.mem_mapValues.mpr ⟨i, entry, rfl⟩,
          unknown, isSecond, rfl⟩)
  · intro covers f member
    rcases mem_pins_iff.mp member with
      ⟨l, p, listed, insideSecond, rfl⟩ | ⟨name, status, j, listed, isKnown, isSecond, rfl⟩
    · rcases mem_zipIdx_map_range.mp listed with ⟨insideFirst, rfl⟩
      exact (located p _ insideSecond).mpr (covers.location p insideFirst insideSecond).symm
    · rcases NameTable.mem_mapValues.mp listed with ⟨i, entry, rfl⟩
      have isFirst := (NameTable.get?_eq_some_iff _).mpr entry
      exact (known j _).mpr ((covers.status name i j isFirst isSecond).resolve_left isKnown).symm

end WitnessStep

namespace Witness

variable {abstract concrete : System} {fairness : Bool} {v : Valuation} {last : Nat}

theorem decode_of_fits (fits : abstract.Fits) (fairness : Bool) (v : Valuation) (last : Nat) :
    decode abstract fairness v last =
      .ok ((List.range (last + 1)).map (WitnessStep.read abstract fairness v)) :=
  mapM_eq_ok_map fun step _ => WitnessStep.decode_of_fits fits fairness v step

/-- The formula of a witness in a system says that its states cover those of the system. -/
theorem denotes_formula (fits : abstract.Fits) (fitsToo : concrete.Fits)
    {witness : List WitnessStep} (decoded : decode abstract fairness v last = .ok witness) :
    Denotes (formula concrete witness) fun v' =>
      ∀ t ≤ last, System.Covers abstract concrete (v.stateAt abstract t)
        (v'.stateAt concrete t) := by
  rw [decode_of_fits fits] at decoded
  obtain rfl := Except.ok.inj decoded
  have each : ∀ f ∈ ((List.range (last + 1)).map (WitnessStep.read abstract fairness v)).flatMap
      (WitnessStep.pins concrete), ∃ g, f = .ok g := by
    simp only [List.forall_mem_flatMap, List.forall_mem_map]
    exact fun t _ => WitnessStep.exists_of_mem_pins fitsToo
  obtain ⟨fs, found, meaning⟩ := Task.denotesAll_untilFalse each
  refine ⟨.conj fs, by rw [formula, found]; rfl, Formula.expresses_conj fun v' => ?_⟩
  simp only [meaning v', List.forall_mem_flatMap, List.forall_mem_map, List.mem_range,
    Nat.lt_succ_iff, WitnessStep.forall_pins_iff fitsToo]

end Witness

end Trivalent
