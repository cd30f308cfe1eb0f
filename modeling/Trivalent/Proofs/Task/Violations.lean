import Trivalent.Proofs.Task.Unrolling

/-!
# Violations are unrollings

Every violation of a system is found again among the valuations that satisfy the formulas of its
task: with the registers that remember its loop, or with idle ones where it has none.
-/

namespace Trivalent

/-- The history of a run whose state at step `r` is recorded, and in which the target is not met
from there on. -/
def History.ofRun (s : Nat → State) (r : Nat) (mover : Nat → Nat) (wildcard : Bool) : History where
  state := s
  shadow t := if r < t then s r else s 0
  record t := t = r
  recorded t := r < t
  progress _ := false
  fair p t := MovedSince mover r p t
  wildcard := wildcard

namespace System.IsRun

variable {system : System} {wildcard : Bool} {n r : Nat} {s : Nat → State} {mover : Nat → Nat}

/-- The states of a run are made of locations that have names. -/
theorem location_lt (run : system.IsRun wildcard n s) {t : Nat} (within : t ≤ n) :
    ∀ p < system.processes.length, (s t).location p < Nat.pow 2 (system.widthOf p) := by
  intro p inside
  obtain ⟨process, found, _⟩ := System.exists_process inside
  rw [System.widthOf_of_found found]
  exact Nat.lt_of_lt_of_le (System.location_lt_extent run found t within)
    process.extent_le_two_pow_width

/-- The states of a run are read back from its history. -/
theorem stateAt_ofRun (run : system.IsRun wildcard n s) {t : Nat} (within : t ≤ n) :
    (((History.ofRun s r mover wildcard).valuation system).stateAt system t).Agrees
      system.processes.length (s t) :=
  History.readAt_valuation (run.location_lt within)

/-- The shadow of the first step of a history is the initial state. -/
theorem shadowAt_ofRun (run : system.IsRun wildcard n s) :
    (((History.ofRun s r mover wildcard).valuation system).shadowAt system 0).Agrees
      system.processes.length (s 0) :=
  History.readAt_valuation (run.location_lt (Nat.zero_le n))

end System.IsRun

namespace Task

variable {task : Task} {wildcard : Bool} {n : Nat} {s : Nat → State}

section Histories

variable {r : Nat} {mover : Nat → Nat}

theorem recordedAfter_ofRun (t : Nat) :
    ((History.ofRun s r mover wildcard).valuation task.system).recordedAfter t =
      decide (r ≤ t) := by
  show (decide (t = r) || decide (r < t)) = decide (r ≤ t)
  rw [← Bool.decide_or, decide_eq_decide, Nat.le_iff_lt_or_eq, or_comm, eq_comm]

/-- The history of a run starts as the task asks for. -/
theorem initial_ofRun (built : task.WellBuilt) (run : task.system.IsRun wildcard n s) :
    Holds ((History.ofRun s r mover wildcard).valuation task.system) task.initial := by
  apply ((denotes_initial built).holds_iff _).mpr
  constructor
  · exact run.initial.congr (run.stateAt_ofRun (Nat.zero_le n)).symm
  constructor
  · intro _
    constructor
    · exact run.initial.congr run.shadowAt_ofRun.symm
    · exact decide_eq_false (Nat.not_lt_zero r)
    · rfl
  · intro _ p _
    show decide (MovedSince mover r p 0) = false
    exact decide_eq_false not_movedSince_zero

/-- The registers of a history remember who has moved. -/
theorem follows_ofRun (t : Nat) :
    task.Follows (mover t) t ((History.ofRun s r mover wildcard).valuation task.system) := by
  intro q _
  rw [recordedAfter_ofRun]
  show decide (MovedSince mover r q (t + 1)) =
    if q = mover t then decide (r ≤ t) else decide (MovedSince mover r q t)
  rw [Bool.eq_iff_iff, decide_eq_true_iff, movedSince_succ_iff]
  by_cases moved : q = mover t
  · simp [moved]
  · simp [moved]

/-- The registers of a history remember the recorded state, and that the target was not met. -/
theorem records_ofRun (built : task.WellBuilt) (run : task.system.IsRun wildcard n s) {t : Nat}
    (before : t < n) (avoids : r ≤ t → ¬task.configuration.Meets (s t)) :
    task.Records t ((History.ofRun s r mover wildcard).valuation task.system) := by
  constructor
  case recorded =>
    rw [recordedAfter_ofRun]
    exact decide_eq_decide.mpr Nat.lt_succ_iff
  case shadow =>
    intro a member
    obtain ⟨bit, shadowed⟩ := History.valuation_tracked
      (h := History.ofRun s r mover wildcard) built t a member
    obtain ⟨_, shadowedLater⟩ := History.valuation_tracked
      (h := History.ofRun s r mover wildcard) built (t + 1) a member
    rw [Atom.shift_shadowed, Atom.shift_shift, shadowedLater, bit, shadowed]
    show (if r < t + 1 then s r else s 0).bit task.system a =
      if (decide (t = r) && !decide (r < t)) = true then (s t).bit task.system a
      else (if r < t then s r else s 0).bit task.system a
    rcases Nat.lt_trichotomy t r with early | rfl | late
    · simp [Nat.ne_of_lt early, Nat.not_lt_of_le (Nat.le_of_lt early),
        Nat.not_lt_of_le (Nat.succ_le_of_lt early)]
    · simp
    · simp [late, Nat.ne_of_gt late, Nat.lt_succ_of_lt late]
  case progress =>
    rw [recordedAfter_ofRun, decide_eq_true_iff,
      System.meets_congr built.valid (run.stateAt_ofRun (Nat.le_of_lt before))]
    constructor
    · intro met
      exact .inl met
    · rintro (met | ⟨recorded, meets⟩)
      · exact met
      · exact absurd meets (avoids recorded)

/-- The history of a run unrolls it. -/
theorem unrolls_ofRun (built : task.WellBuilt) (room : n < Word.limit)
    (run : task.system.IsRun wildcard n s)
    (moves : ∀ t < n, task.system.Moves wildcard (mover t) (s t) (s (t + 1)))
    (avoids : task.configuration.isLiveness = true →
      ∀ t, r ≤ t → t < n → ¬task.configuration.Meets (s t)) :
    task.Unrolls n ((History.ofRun s r mover wildcard).valuation task.system) := by
  constructor
  · exact initial_ofRun built run
  · intro t before
    apply ((denotes_step built (Nat.lt_of_le_of_lt before room)).holds_iff _).mpr
    constructor
    · refine ⟨mover t, ?_, fun _ => follows_ofRun t⟩
      exact (moves t before).congr (run.stateAt_ofRun (Nat.le_of_lt before)).symm
        (run.stateAt_ofRun before).symm
    · intro liveness
      exact records_ofRun built run before fun since => avoids liveness t since before

end Histories

/-- The history of a lasso closes its loop. -/
theorem loops_ofRun (built : task.WellBuilt) {r : Nat} {mover : Nat → Nat}
    (lasso : task.system.IsLasso task.configuration wildcard n r s mover) :
    task.Loops n ((History.ofRun s r mover wildcard).valuation task.system) := by
  constructor
  case recorded => exact decide_eq_true lasso.start
  case closes =>
    intro a member
    obtain ⟨bit, shadowed⟩ := History.valuation_tracked
      (h := History.ofRun s r mover wildcard) built n a member
    rw [bit, shadowed]
    show (s n).bit task.system a = (if r < n then s r else s 0).bit task.system a
    rw [if_pos lasso.start]
    exact (lasso.closes.bit_eq built a member).symm
  case progress => rfl
  case fair =>
    intro fairness p inside
    obtain ⟨t, since, before, same⟩ := lasso.fair fairness p inside
    exact decide_eq_true ⟨t, before, since, same⟩

/-! ## The property -/

/-- An unrolling that reaches the property is a violation. -/
theorem violates_of_unrolls (built : task.WellBuilt) (room : n < Word.limit) {v : Valuation}
    (unrolls : task.Unrolls n v) (reaches : task.Reaches n v) :
    task.system.Violates task.configuration (v .wildcard) n (v.stateAt task.system) := by
  cases property : task.configuration.property with
  | reachability =>
      rw [System.violates_reachability_iff property]
      rw [reaches_reachability_iff property] at reaches
      exact ⟨unrolls.isRun built room, reaches⟩
  | liveness =>
      rw [System.violates_liveness_iff property]
      rw [reaches_liveness_iff property] at reaches
      have isLiveness : task.configuration.isLiveness = true := by
        simp [Configuration.isLiveness, property]
      obtain ⟨r, from_r⟩ := unrolls.exists_recordedFrom built isLiveness reaches.recorded
      exact ⟨r, unrolls.exists_isLasso built isLiveness room from_r reaches⟩

/-- A violation is read back from an unrolling that reaches the property. -/
theorem exists_unrolls_of_violates (built : task.WellBuilt) (room : n < Word.limit)
    (violates : task.system.Violates task.configuration wildcard n s) :
    ∃ v, task.Unrolls n v ∧ task.Reaches n v ∧ v .wildcard = wildcard ∧
      ∀ t ≤ n, (v.stateAt task.system t).Agrees task.system.processes.length (s t) := by
  cases property : task.configuration.property with
  | reachability =>
      rw [System.violates_reachability_iff property] at violates
      rcases violates with ⟨run, meets⟩
      have goes : ∀ t < n, ∃ p, task.system.Moves wildcard p (s t) (s (t + 1)) := run.moves
      choose! mover moves using goes
      refine ⟨(History.ofRun s n mover wildcard).valuation task.system,
        unrolls_ofRun built room run moves ?_, ?_, rfl, fun t => run.stateAt_ofRun⟩
      · intro liveness
        simp [Configuration.isLiveness, property] at liveness
      · rw [reaches_reachability_iff property]
        exact (System.meets_congr built.valid (run.stateAt_ofRun (Nat.le_refl n))).mpr meets
  | liveness =>
      rw [System.violates_liveness_iff property] at violates
      rcases violates with ⟨r, mover, lasso⟩
      refine ⟨(History.ofRun s r mover wildcard).valuation task.system,
        unrolls_ofRun built room lasso.isRun lasso.moves fun _ => lasso.avoids, ?_, rfl,
        fun t => lasso.isRun.stateAt_ofRun⟩
      rw [reaches_liveness_iff property]
      exact loops_ofRun built lasso

end Task

end Trivalent
