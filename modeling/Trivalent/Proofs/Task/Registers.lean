import Mathlib.Order.Nat
import Trivalent.Proofs.Task.Steps

/-!
# The registers of a recording

What the registers of a recording hold is told by the steps before.  Of all steps that are to be
recorded the first one is, and the shadow keeps the bits of its state, whatever is to be recorded
later.  From that step on the registers remember whether the target was met and who has moved.
-/

namespace Trivalent

/-! ## The recorded step -/

/-- Step `r` is the first one that is to be recorded. -/
structure Valuation.FirstRecord (v : Valuation) (r : Nat) : Prop where
  record : v (.record r) = true
  before : ∀ t < r, v (.record t) = false

namespace Valuation

variable {v : Valuation} {r t : Nat}

/-- If some step is to be recorded then there is a first one. -/
theorem exists_firstRecord (some : ∃ s, v (.record s) = true) : ∃ r, v.FirstRecord r := by
  refine ⟨Nat.find some, Nat.find_spec some, fun t early => ?_⟩
  rw [← Bool.not_eq_true]
  exact Nat.find_min some early

/-- Some step before step `t` is to be recorded exactly if the first one is before it. -/
theorem FirstRecord.exists_lt_iff (first : v.FirstRecord r) :
    (∃ s < t, v (.record s) = true) ↔ r < t := by
  constructor
  · rintro ⟨s, early, isRecord⟩
    by_contra notAfter
    rw [first.before s (Nat.lt_of_lt_of_le early (Nat.le_of_not_lt notAfter))] at isRecord
    contradiction
  · intro after
    exact ⟨r, after, first.record⟩

end Valuation

/-- The state of step `r` is the one that is recorded in the first `n` steps. -/
structure Valuation.RecordedFrom (v : Valuation) (n r : Nat) : Prop where
  start : r < n
  record : v (.record r) = true
  before : ∀ t < r, v (.record t) = false
  recorded : ∀ t ≤ n, v (.recorded t) = decide (r < t)

namespace Valuation.RecordedFrom

variable {v : Valuation} {n r t : Nat}

theorem recordedAfter (from_r : v.RecordedFrom n r) (within : t ≤ n) :
    v.recordedAfter t = decide (r ≤ t) := by
  rw [Valuation.recordedAfter, from_r.recorded t within]
  rcases Nat.lt_trichotomy t r with early | rfl | late
  · simp [from_r.before t early, Nat.not_lt_of_le (Nat.le_of_lt early), Nat.not_le_of_lt early]
  · simp [from_r.record]
  · simp [late, Nat.le_of_lt late]

theorem recordsAt (from_r : v.RecordedFrom n r) (within : t ≤ n) :
    v.recordsAt t = decide (t = r) := by
  rw [Valuation.recordsAt, from_r.recorded t within]
  rcases Nat.lt_trichotomy t r with early | rfl | late
  · simp [from_r.before t early, Nat.ne_of_lt early]
  · simp [from_r.record]
  · simp [late, Nat.ne_of_gt late]

end Valuation.RecordedFrom

/-- Process `q` moved before step `t`, at step `r` or later. -/
def MovedSince (mover : Nat → Nat) (r q t : Nat) : Prop :=
  ∃ t' < t, r ≤ t' ∧ mover t' = q

instance (mover : Nat → Nat) (r q t : Nat) : Decidable (MovedSince mover r q t) :=
  inferInstanceAs (Decidable (∃ t' < t, r ≤ t' ∧ mover t' = q))

theorem not_movedSince_zero {mover : Nat → Nat} {r q : Nat} : ¬MovedSince mover r q 0 := by
  rintro ⟨t, before, _⟩
  exact Nat.not_lt_zero t before

/-- Whether a process has moved is up to the last step if the process moves there, and else up to
the steps before it. -/
theorem movedSince_succ_iff {mover : Nat → Nat} {r q t : Nat} :
    MovedSince mover r q (t + 1) ↔ if q = mover t then r ≤ t else MovedSince mover r q t := by
  by_cases moved : q = mover t
  · rw [if_pos moved]
    constructor
    · rintro ⟨t', before, since, _⟩
      exact Nat.le_trans since (Nat.le_of_lt_succ before)
    · intro since
      exact ⟨t, Nat.lt_succ_self t, since, moved.symm⟩
  · rw [if_neg moved]
    constructor
    · rintro ⟨t', before, since, same⟩
      rcases Nat.lt_succ_iff_lt_or_eq.mp before with earlier | rfl
      · exact ⟨t', earlier, since, same⟩
      · exact absurd same.symm moved
    · rintro ⟨t', before, since, same⟩
      exact ⟨t', Nat.lt_succ_of_lt before, since, same⟩

/-! ## Registers over many steps -/

namespace Task

/-- The registers of a recording are empty at first and go on at the first `n` steps. -/
structure Registers (task : Task) (n : Nat) (v : Valuation) : Prop where
  recordedZero : v (.recorded 0) = false
  progressZero : v (.progress 0) = false
  recorded : ∀ t < n, v (.recorded (t + 1)) = v.recordedAfter t
  shadow : ∀ t < n, ∀ a ∈ task.tracked, v (a.shift (t + 1)).shadowed =
    if v.recordsAt t then v (a.shift t) else v (a.shift t).shadowed
  progress : ∀ t < n, v (.progress (t + 1)) = true ↔
    v (.progress t) = true ∨ v.recordedAfter t = true ∧ Holds v (task.target t)

namespace Registers

variable {task : Task} {n r t : Nat} {v : Valuation} (registers : task.Registers n v)

include registers

/-- A state has been recorded before a step exactly if one was to be. -/
theorem recorded_iff (within : t ≤ n) :
    v (.recorded t) = true ↔ ∃ s < t, v (.record s) = true := by
  induction t with
  | zero => simp [registers.recordedZero]
  | succ t ih =>
      rw [registers.recorded t within, Valuation.recordedAfter, Bool.or_eq_true,
        ih (Nat.le_of_lt within), Nat.exists_lt_succ_right, or_comm]

/-- What has been recorded is the state of the first step that was to be. -/
theorem recordedFrom (first : v.FirstRecord r) (start : r < n) : v.RecordedFrom n r := by
  refine ⟨start, first.record, first.before, fun t within => ?_⟩
  rw [Bool.eq_iff_iff, decide_eq_true_iff, registers.recorded_iff within, first.exists_lt_iff]

theorem exists_recordedFrom (recorded : v (.recorded n) = true) : ∃ r, v.RecordedFrom n r := by
  have some := (registers.recorded_iff (Nat.le_refl n)).mp recorded
  obtain ⟨r, first⟩ := Valuation.exists_firstRecord (some.imp fun _ => And.right)
  exact ⟨r, registers.recordedFrom first (first.exists_lt_iff.mp some)⟩

/-- What has been recorded stays recorded. -/
theorem recorded_mono {t' : Nat} (later : t ≤ t') (within : t' ≤ n)
    (recorded : v (.recorded t) = true) : v (.recorded t') = true := by
  obtain ⟨s, before, isRecord⟩ := (registers.recorded_iff (Nat.le_trans later within)).mp recorded
  exact (registers.recorded_iff within).mpr ⟨s, Nat.lt_of_lt_of_le before later, isRecord⟩

/-- A state has been recorded when a step is left exactly if it is the first one to be recorded or
comes after it. -/
theorem recordedAfter_iff (before : t < n) :
    v.recordedAfter t = true ↔ ∃ r ≤ t, v.FirstRecord r := by
  rw [← registers.recorded t before, registers.recorded_iff before]
  constructor
  · intro some
    obtain ⟨r, first⟩ := Valuation.exists_firstRecord (some.imp fun _ => And.right)
    exact ⟨r, Nat.le_of_lt_succ (first.exists_lt_iff.mp some), first⟩
  · rintro ⟨r, since, first⟩
    exact ⟨r, Nat.lt_succ_of_le since, first.record⟩

/-! ## The shadow -/

/-- The shadow keeps its bits while nothing is recorded. -/
theorem shadow_stays {t' : Nat} (later : t ≤ t') (within : t' ≤ n)
    (idle : ∀ s, t ≤ s → s < t' → v.recordsAt s = false) :
    ∀ a ∈ task.tracked, v (a.shift t').shadowed = v (a.shift t).shadowed := by
  intro a member
  induction t', later using Nat.le_induction with
  | base => rfl
  | succ t' later ih =>
      rw [registers.shadow t' within a member, idle t' later (Nat.lt_succ_self t'),
        if_neg Bool.false_ne_true]
      exact ih (Nat.le_of_lt within) fun s since before => idle s since (Nat.lt_succ_of_lt before)

/-- Once a state has been recorded the shadow keeps its bits. -/
theorem shadow_lasts {t' : Nat} (later : t ≤ t') (within : t' ≤ n)
    (recorded : v (.recorded t) = true) :
    ∀ a ∈ task.tracked, v (a.shift t').shadowed = v (a.shift t).shadowed := by
  refine registers.shadow_stays later within fun s since before => ?_
  have already := registers.recorded_mono since (Nat.le_trans (Nat.le_of_lt before) within) recorded
  rw [Valuation.recordsAt, already, Bool.not_true, Bool.and_false]

/-- From the recording on, the shadow has the bits of the recorded state. -/
theorem shadow_eq (from_r : v.RecordedFrom n r) (after : r < t) (within : t ≤ n) :
    ∀ a ∈ task.tracked, v (a.shift t).shadowed = v (a.shift r) := by
  intro a member
  -- The step after the recorded one copies its bits, and from there on they last.
  have recorded : v (.recorded (r + 1)) = true := by
    rw [from_r.recorded (r + 1) from_r.start]
    exact decide_eq_true (Nat.lt_succ_self r)
  rw [registers.shadow_lasts after within recorded a member,
    registers.shadow r from_r.start a member, from_r.recordsAt (Nat.le_of_lt from_r.start),
    decide_eq_true rfl, if_pos rfl]

/-! ## The target and the movements -/

/-- The target was met since the recording exactly if it was at a step from the recorded one on. -/
theorem progress_iff (within : t ≤ n) :
    v (.progress t) = true ↔ ∃ s < t, v.recordedAfter s = true ∧ Holds v (task.target s) := by
  induction t with
  | zero => simp [registers.progressZero]
  | succ t ih =>
      rw [registers.progress t within, ih (Nat.le_of_lt within), Nat.exists_lt_succ_right]

/-- A process has moved since the recording exactly if it did at a step from the recorded one on. -/
theorem fair_iff (still : task.Still v) {mover : Nat → Nat}
    (follows : ∀ t < n, task.Follows (mover t) t v) {q : Nat}
    (inside : q < task.system.processes.length) (within : t ≤ n) :
    v (.fair q t) = true ↔ ∃ s < t, v.recordedAfter s = true ∧ mover s = q := by
  induction t with
  | zero => simp [still q inside]
  | succ t ih =>
      rw [follows t within q inside, Nat.exists_lt_succ_right, ← ih (Nat.le_of_lt within)]
      by_cases moved : q = mover t
      · -- Whoever moved earlier did so after the recording, which is still there.
        have lasts (since : v (.fair q t) = true) : v.recordedAfter t = true := by
          obtain ⟨s, before, recorded, _⟩ := (ih (Nat.le_of_lt within)).mp since
          rw [← registers.recorded s (Nat.lt_trans before within)] at recorded
          have already := registers.recorded_mono before (Nat.le_of_lt within) recorded
          rw [Valuation.recordedAfter, already, Bool.or_true]
        rw [if_pos moved, and_iff_left moved.symm]
        exact (or_iff_right_of_imp lasts).symm
      · rw [if_neg moved, or_iff_left fun both => moved both.2.symm]

/-- The registers of the movements tell who has moved since the recording. -/
theorem fair_iff_movedSince (from_r : v.RecordedFrom n r) (still : task.Still v) {mover : Nat → Nat}
    (follows : ∀ t < n, task.Follows (mover t) t v) {q : Nat}
    (inside : q < task.system.processes.length) (within : t ≤ n) :
    v (.fair q t) = true ↔ MovedSince mover r q t := by
  rw [registers.fair_iff still follows inside within]
  refine exists_congr fun s => and_congr_right fun before => ?_
  rw [from_r.recordedAfter (Nat.le_trans (Nat.le_of_lt before) within), decide_eq_true_iff]

end Registers

end Task

end Trivalent
