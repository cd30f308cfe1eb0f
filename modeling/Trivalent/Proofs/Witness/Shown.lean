import Trivalent.Proofs.Task.Violations
import Trivalent.Proofs.Witness.Path

/-!
# What a witness shows

Every entry of a witness shows a state with the registers of the recording.  A witness that is read
back from an unrolling shows the states of the unrolling, and if the unrolling closes a loop then the
registers tell where the loop starts and who has moved in it.
-/

namespace Trivalent

/-- An entry of a witness shows a state: where every process is and which status every predicate
has. -/
structure WitnessStep.Shows (system : System) (entry : WitnessStep) (s : State) : Prop where
  locations : entry.locations = (List.range system.processes.length).map s.location
  predicates : entry.predicates = system.predicates.mapValues s.status

namespace Witness

/-- The entries of a witness show the states of the steps up to `n`, in order. -/
structure Shows (system : System) (n : Nat) (witness : List WitnessStep) (s : Nat → State) :
    Prop where
  length : witness.length = n + 1
  step : ∀ (t : Nat) (entry : WitnessStep), witness[t]? = some entry → entry.step = t
  states : ∀ (t : Nat) (entry : WitnessStep), witness[t]? = some entry → entry.Shows system (s t)

/-- The registers of a witness of `n` steps tell that the state of step `r` and no other is recorded.
If loops have to be fair they also tell that no process has moved up to step `r`, and that all of them
have in the end. -/
structure Records (system : System) (configuration : Configuration) (n r : Nat)
    (witness : List WitnessStep) : Prop where
  record : ∀ (t : Nat) (entry : WitnessStep), witness[t]? = some entry →
    (entry.record = true ∧ entry.recorded = false ↔ t = r)
  recorded : ∀ (t : Nat) (entry : WitnessStep), witness[t]? = some entry →
    (entry.recorded = true ↔ r < t)
  still : configuration.fairness = true →
    ∀ (t : Nat) (entry : WitnessStep), witness[t]? = some entry → t ≤ r →
      entry.fairness = some (List.replicate system.processes.length false)
  moved : configuration.fairness = true → ∀ entry : WitnessStep, witness[n]? = some entry →
    entry.fairness = some (List.replicate system.processes.length true)

/-- A witness shows a violation of `n` steps: a run to the target, or a lasso whose start is
recorded. -/
def ShowsViolation (system : System) (configuration : Configuration) (wildcard : Bool) (n : Nat)
    (witness : List WitnessStep) : Prop :=
  ∃ s, Shows system n witness s ∧
    match configuration.property with
    | .reachability => system.IsRun wildcard n s ∧ configuration.Meets (s n)
    | .liveness => ∃ r mover, system.IsLasso configuration wildcard n r s mover ∧
        Records system configuration n r witness

section Decoding

variable {system : System} {fairness : Bool} {v : Valuation} {n t : Nat}
  {witness : List WitnessStep} {entry : WitnessStep}

theorem getElem?_eq_some_iff (fits : system.Fits)
    (decoded : decode system fairness v n = .ok witness) :
    witness[t]? = some entry ↔ t ≤ n ∧ WitnessStep.read system fairness v t = entry := by
  rw [decode_of_fits fits] at decoded
  obtain rfl := Except.ok.inj decoded
  rw [List.getElem?_map, Option.map_eq_some_iff]
  constructor
  · rintro ⟨t', found, same⟩
    obtain ⟨inside, isStep⟩ := List.getElem?_eq_some_iff.mp found
    rw [List.length_range] at inside
    rw [List.getElem_range] at isStep
    obtain rfl := isStep
    exact ⟨Nat.le_of_lt_succ inside, same⟩
  · rintro ⟨within, same⟩
    exact ⟨t, List.getElem?_range (Nat.lt_succ_of_le within), same⟩

/-- What is read back from a valuation shows the states of the valuation. -/
theorem shows_of_decode (fits : system.Fits)
    (decoded : decode system fairness v n = .ok witness) :
    Shows system n witness (v.stateAt system) := by
  constructor
  case length =>
    rw [decode_of_fits fits] at decoded
    obtain rfl := Except.ok.inj decoded
    simp
  case step =>
    intro t entry found
    obtain ⟨_, rfl⟩ := (getElem?_eq_some_iff fits decoded).mp found
    rfl
  case states =>
    intro t entry found
    obtain ⟨_, rfl⟩ := (getElem?_eq_some_iff fits decoded).mp found
    exact ⟨rfl, rfl⟩

theorem fairness_read {value : Bool}
    (all : ∀ p < system.processes.length, v (.fair p t) = value) :
    (WitnessStep.read system true v t).fairness =
      some (List.replicate system.processes.length value) := by
  show some _ = some _
  congr 1
  rw [List.eq_replicate_iff]
  constructor
  · rw [List.length_map, List.length_range]
  · simpa using all

end Decoding

variable {task : Task} {v : Valuation} {n : Nat} {witness : List WitnessStep}

/-- The registers of an unrolling that closes a loop tell where it starts. -/
theorem records_of_recordedFrom (built : task.WellBuilt) (room : n < Word.limit)
    (unrolls : task.Unrolls n v) (loops : task.Loops n v)
    (liveness : task.configuration.isLiveness = true) {r : Nat} (from_r : v.RecordedFrom n r)
    (decoded : decode task.system task.configuration.fairness v n = .ok witness) :
    Records task.system task.configuration n r witness := by
  constructor
  case record =>
    intro t entry found
    obtain ⟨within, rfl⟩ := (getElem?_eq_some_iff built.fits decoded).mp found
    have records := from_r.recordsAt within
    rw [Bool.eq_iff_iff, decide_eq_true_iff, Valuation.recordsAt, Bool.and_eq_true,
      Bool.not_eq_true'] at records
    exact records
  case recorded =>
    intro t entry found
    obtain ⟨within, rfl⟩ := (getElem?_eq_some_iff built.fits decoded).mp found
    have recorded := from_r.recorded t within
    rw [Bool.eq_iff_iff, decide_eq_true_iff] at recorded
    exact recorded
  case still =>
    intro fairness t entry found early
    obtain ⟨_, rfl⟩ := (getElem?_eq_some_iff built.fits decoded).mp found
    rw [fairness]
    exact fairness_read fun p inside =>
      unrolls.fair_eq_false built liveness room from_r fairness early inside
  case moved =>
    intro fairness entry found
    obtain ⟨_, rfl⟩ := (getElem?_eq_some_iff built.fits decoded).mp found
    rw [fairness]
    exact fairness_read (loops.fair fairness)

/-- The witness of an unrolling that reaches the property shows a violation. -/
theorem showsViolation_of_unrolls (built : task.WellBuilt) (room : n < Word.limit)
    (unrolls : task.Unrolls n v) (reaches : task.Reaches n v)
    (decoded : decode task.system task.configuration.fairness v n = .ok witness) :
    ShowsViolation task.system task.configuration (v .wildcard) n witness := by
  refine ⟨v.stateAt task.system, shows_of_decode built.fits decoded, ?_⟩
  cases property : task.configuration.property with
  | reachability =>
      rw [Task.reaches_reachability_iff property] at reaches
      exact ⟨unrolls.isRun built room, reaches⟩
  | liveness =>
      rw [Task.reaches_liveness_iff property] at reaches
      have liveness : task.configuration.isLiveness = true := by
        simp [Configuration.isLiveness, property]
      obtain ⟨r, from_r⟩ := unrolls.exists_recordedFrom built liveness reaches.recorded
      obtain ⟨mover, lasso⟩ := unrolls.exists_isLasso built liveness room from_r reaches
      exact ⟨r, mover, lasso,
        records_of_recordedFrom built room unrolls reaches liveness from_r decoded⟩

end Witness

end Trivalent
