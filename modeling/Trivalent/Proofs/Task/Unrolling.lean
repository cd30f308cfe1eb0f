import Trivalent.Proofs.Task.History
import Trivalent.Proofs.Task.Registers

/-!
# Unrollings are runs

The valuations that satisfy the formulas of the first steps and the property are the violations of
the system.  For a loop the recorded step is where it starts.
-/

namespace Trivalent

namespace Task

variable {task : Task}

/-- A valuation satisfies the initial formula and those of the first `n` steps. -/
structure Unrolls (task : Task) (n : Nat) (v : Valuation) : Prop where
  initial : Holds v task.initial
  steps : ∀ t < n, Holds v (task.step t)

instance (task : Task) (n : Nat) (v : Valuation) : Decidable (task.Unrolls n v) :=
  decidable_of_iff (Holds v task.initial ∧ ∀ t < n, Holds v (task.step t))
    ⟨fun ⟨initial, steps⟩ => ⟨initial, steps⟩, fun unrolls => ⟨unrolls.initial, unrolls.steps⟩⟩

namespace Unrolls

variable {n : Nat} {v : Valuation}

theorem mono {m : Nat} (unrolls : task.Unrolls n v) (fewer : m ≤ n) : task.Unrolls m v :=
  ⟨unrolls.initial, fun t before => unrolls.steps t (Nat.lt_of_lt_of_le before fewer)⟩

/-! ## Registers -/

section Registers

variable (unrolls : task.Unrolls n v) (liveness : task.configuration.isLiveness = true)
  (numbered : task.system.Numbered)

include unrolls liveness numbered

/-- The registers of an unrolling start empty and go on. -/
theorem registers (fits : task.system.Fits) : task.Registers n v := by
  have unrecorded := (((denotes_initial_of_fits numbered fits).holds_iff v).mp unrolls.initial).2.1
    liveness
  -- Where the recording formula of a step is there, so is the target formula that it asks for.
  have records (t : Nat) (before : t < n) := by
    have holds := (holds_step liveness (unrolls.steps t before)).2
    have found := recording_eq_ok holds.choose_spec.1
    have target := denotes_holds found.2.choose_spec
    exact ((denotes_recording_of_target target found.1).holds_iff v).mp holds
  constructor
  case recordedZero => exact unrecorded.recorded
  case progressZero => exact unrecorded.progress
  case recorded => exact fun t before => (records t before).1
  case shadow =>
    intro t before a member
    have shadow := (records t before).2.1 a member
    rwa [Atom.shift_shadowed, Atom.shift_shift] at shadow
  case progress => exact fun t before => (records t before).2.2

/-- At every step some template is taken, and the registers of the movements follow it. -/
theorem exists_taken {t : Nat} (before : t < n) :
    ∃ made ∈ task.templates, Holds v (made.instantiate t) ∧
      (task.configuration.isFair = true → task.Follows made.parent t v) := by
  obtain ⟨⟨made, member, move⟩, recording, found, _⟩ :=
    holds_step liveness (unrolls.steps t before)
  obtain ⟨taken, isTaken, _⟩ := bind_eq_ok_iff.mp move.choose_spec.1
  have room := (recording_eq_ok found).1
  exact ⟨made, member, ((denotes_move_of_instantiate numbered isTaken room).holds_iff v).mp move⟩

end Registers

/-! ## Runs -/

section Runs

variable (built : task.WellBuilt) (unrolls : task.Unrolls n v)

include built unrolls

theorem starts : task.system.IsInitial (v.stateAt task.system 0) ∧
    (task.configuration.isLiveness = true → task.Unrecorded v) ∧
      (task.configuration.isFair = true → task.Still v) :=
  ((denotes_initial built).holds_iff v).mp unrolls.initial

variable (room : n < Word.limit)

include room

theorem goes {t : Nat} (before : t < n) :
    (∃ p, task.system.Moves (v .wildcard) p (v.stateAt task.system t)
        (v.stateAt task.system (t + 1)) ∧
      (task.configuration.isFair = true → task.Follows p t v)) ∧
    (task.configuration.isLiveness = true → task.Records t v) :=
  ((denotes_step built (Nat.lt_of_le_of_lt before room)).holds_iff v).mp (unrolls.steps t before)

/-- At every step some process moves, and the registers follow it. -/
theorem exists_movers : ∃ mover : Nat → Nat, ∀ t < n,
    task.system.Moves (v .wildcard) (mover t) (v.stateAt task.system t)
        (v.stateAt task.system (t + 1)) ∧
      (task.configuration.isFair = true → task.Follows (mover t) t v) := by
  have goes : ∀ t < n, ∃ p, task.system.Moves (v .wildcard) p (v.stateAt task.system t)
      (v.stateAt task.system (t + 1)) ∧
        (task.configuration.isFair = true → task.Follows p t v) :=
    fun _ before => (unrolls.goes built room before).1
  choose! mover moves using goes
  exact ⟨mover, moves⟩

/-- The states of an unrolling are a run. -/
theorem isRun : task.system.IsRun (v .wildcard) n (v.stateAt task.system) := by
  obtain ⟨mover, moves⟩ := unrolls.exists_movers built room
  constructor
  · exact (unrolls.starts built).1
  · exact fun t before => ⟨mover t, (moves t before).1⟩

end Runs

/-! ## Loops -/

section Loops

variable (built : task.WellBuilt) (unrolls : task.Unrolls n v)
  (liveness : task.configuration.isLiveness = true)

include built unrolls liveness

/-- What has been recorded is the state of the first step that was to be. -/
theorem exists_recordedFrom (recorded : v (.recorded n) = true) : ∃ r, v.RecordedFrom n r :=
  (unrolls.registers liveness built.numbered built.fits).exists_recordedFrom recorded

/-- The states since the recording do not meet the target. -/
theorem avoids {r : Nat} (from_r : v.RecordedFrom n r) (never : v (.progress n) = false) :
    ∀ t, r ≤ t → t < n → ¬task.configuration.Meets (v.stateAt task.system t) := by
  intro t after before meets
  have registers := unrolls.registers liveness built.numbered built.fits
  have since : v.recordedAfter t = true := by
    rw [from_r.recordedAfter (Nat.le_of_lt before)]
    exact decide_eq_true after
  have met := (registers.progress_iff (Nat.le_refl n)).mpr
    ⟨t, before, since, ((denotes_target built t).holds_iff v).mpr meets⟩
  rw [never] at met
  contradiction

variable (room : n < Word.limit)

include room

/-- Up to the recording no process is said to have moved. -/
theorem fair_eq_false {r : Nat} (from_r : v.RecordedFrom n r)
    (fairness : task.configuration.fairness = true) {t : Nat} (early : t ≤ r) {p : Nat}
    (inside : p < task.system.processes.length) : v (.fair p t) = false := by
  have isFair : task.configuration.isFair = true := by
    simp [Configuration.isFair, liveness, fairness]
  obtain ⟨mover, moves⟩ := unrolls.exists_movers built room
  have within : t ≤ n := Nat.le_trans early (Nat.le_of_lt from_r.start)
  have registers := unrolls.registers liveness built.numbered built.fits
  rw [← Bool.not_eq_true, registers.fair_iff_movedSince from_r
    ((unrolls.starts built).2.2 isFair) (fun t before => (moves t before).2 isFair) inside within]
  rintro ⟨t', before, since, _⟩
  exact absurd (Nat.lt_of_lt_of_le before early) (Nat.not_lt_of_le since)

/-- An unrolling that closes a loop is a lasso from the recorded step on. -/
theorem exists_isLasso {r : Nat} (from_r : v.RecordedFrom n r) (loops : task.Loops n v) :
    ∃ mover, task.system.IsLasso task.configuration (v .wildcard) n r
      (v.stateAt task.system) mover := by
  obtain ⟨mover, moves⟩ := unrolls.exists_movers built room
  have registers := unrolls.registers liveness built.numbered built.fits
  refine ⟨mover, ?_⟩
  constructor
  case initial => exact (unrolls.starts built).1
  case moves => exact fun t before => (moves t before).1
  case start => exact from_r.start
  case closes =>
    apply Valuation.sameState_of_bits built
    intro a member
    rw [loops.closes a member, registers.shadow_eq from_r from_r.start (Nat.le_refl n) a member]
  case avoids => exact unrolls.avoids built liveness from_r loops.progress
  case fair =>
    intro fairness p inside
    have isFair : task.configuration.isFair = true := by
      simp [Configuration.isFair, liveness, fairness]
    have still := (unrolls.starts built).2.2 isFair
    have follows : ∀ t < n, task.Follows (mover t) t v :=
      fun t before => (moves t before).2 isFair
    obtain ⟨t, before, since, same⟩ := (registers.fair_iff_movedSince from_r still follows inside
      (Nat.le_refl n)).mp (loops.fair fairness p inside)
    exact ⟨t, since, before, same⟩

end Loops

end Unrolls

end Task

end Trivalent
