import Trivalent.Proofs.System.Equality
import Trivalent.Proofs.Task.Unrolling

/-!
# What the registers remember

The registers of an unrolling tell what has happened: whether a state was to be recorded, and since
the first time one was its bits, whether the target was met and which processes have moved.  When
else a state was to be recorded makes no difference.
-/

namespace Trivalent

/-! ## Bits of a state -/

/-- The bits that a valuation gives the state of a step, or its shadow, are those of another one. -/
structure Valuation.SameBits (v : Valuation) (system : System) (shadow : Bool) (t : Nat)
    (shadow' : Bool) (t' : Nat) : Prop where
  predicate : ∀ id ∈ system.predicates.values, ∀ bit,
    v (.predicate id bit t shadow) = v (.predicate id bit t' shadow')
  location : ∀ p < system.processes.length, ∀ bit < system.widthOf p,
    v (.location p bit t shadow) = v (.location p bit t' shadow')

/-- An atom of a state at a step, or in the shadow of the step. -/
def Atom.sideAt (a : Atom) (shadow : Bool) (t : Nat) : Atom :=
  if shadow then (a.shift t).shadowed else a.shift t

/-- Bits that stand for the same known status are the same. -/
theorem Encoding.statusOfBits_inj {unknown truth unknown' truth' : Bool} {status : Status}
    (known : status ≠ .unknown) (same : statusOfBits unknown truth = status)
    (sameToo : statusOfBits unknown' truth' = status) : unknown = unknown' ∧ truth = truth' := by
  revert known same sameToo
  cases unknown <;> cases truth <;> cases unknown' <;> cases truth' <;> cases status <;> decide

namespace Valuation.SameBits

variable {v : Valuation} {system : System}

theorem trans {shadow shadow' shadow'' : Bool} {t t' t'' : Nat}
    (first : v.SameBits system shadow t shadow' t')
    (second : v.SameBits system shadow' t' shadow'' t'') :
    v.SameBits system shadow t shadow'' t'' where
  predicate id member bit := (first.predicate id member bit).trans (second.predicate id member bit)
  location p inside bit small :=
    (first.location p inside bit small).trans (second.location p inside bit small)

/-- The tracked atoms are the bits of a state. -/
theorem of_tracked {tracked : List Atom} (numbered : system.Numbered) (fits : system.Fits)
    (encoded : Encoding.trackedAtoms system = .ok tracked) {shadow shadow' : Bool} {t t' : Nat}
    (same : ∀ a ∈ tracked, v (a.sideAt shadow t) = v (a.sideAt shadow' t')) :
    v.SameBits system shadow t shadow' t' := by
  rw [Encoding.forall_tracked numbered fits encoded] at same
  rcases same with ⟨predicates, locations⟩
  have predicate (id : Nat) (bit : PredicateBit) (shadow : Bool) (t : Nat) :
      (Atom.predicate id bit Encoding.current false).sideAt shadow t =
        .predicate id bit t shadow := by
    cases shadow <;> simp [Atom.sideAt, Atom.shift, Atom.shadowed, Encoding.current]
  have location (p bit : Nat) (shadow : Bool) (t : Nat) :
      (Atom.location p bit Encoding.current false).sideAt shadow t = .location p bit t shadow := by
    cases shadow <;> simp [Atom.sideAt, Atom.shift, Atom.shadowed, Encoding.current]
  constructor
  · intro id member bit
    have same := predicates id member bit
    rwa [predicate, predicate] at same
  · intro p inside bit small
    have same := locations p inside bit small
    rwa [location, location] at same

/-- Two initial states have the same bits. -/
theorem of_isInitial {shadow shadow' : Bool} {t t' : Nat}
    (initial : system.IsInitial (v.readAt system shadow t))
    (initialToo : system.IsInitial (v.readAt system shadow' t')) :
    v.SameBits system shadow t shadow' t' := by
  constructor
  · intro id member bit
    rcases List.mem_map.mp member with ⟨entry, listed, rfl⟩
    have known : system.initialStatus entry.1 ≠ .unknown := by
      unfold System.initialStatus
      cases system.initialValue entry.1 <;> decide
    have bits := Encoding.statusOfBits_inj known (initial.status entry listed)
      (initialToo.status entry listed)
    cases bit
    · exact bits.1
    · exact bits.2
  · intro p inside
    exact Encoding.number_eq_iff.mp ((initial.location p inside).trans
      (initialToo.location p inside).symm)

end Valuation.SameBits

/-! ## Registers -/

namespace Task

/-- The registers of the first `n` steps tell what has happened at them. -/
structure Remembers (task : Task) (n : Nat) (v : Valuation) : Prop where
  /-- A state has been recorded exactly if one was to be. -/
  recorded : ∀ t ≤ n, v (.recorded t) = true ↔ ∃ s < t, v (.record s) = true
  /-- The shadow has the bits of the first state that was to be recorded. -/
  shadow : ∀ r, v.FirstRecord r → ∀ t ≤ n, r < t → v.SameBits task.system true t false r
  /-- Since then the target was met exactly if the target formula holds at some step. -/
  progress : ∀ r, v.FirstRecord r → ∀ t ≤ n, r < t →
    (v (.progress t) = true ↔ ∃ s < t, r ≤ s ∧ Holds v (task.target s))
  /-- As long as no state was to be recorded the shadow has the bits of the first state. -/
  unrecorded : ∀ t ≤ n, (∀ s < t, v (.record s) = false) →
    v.SameBits task.system true t false 0 ∧ v (.progress t) = false
  /-- What has been recorded does not change any more. -/
  lasting : ∀ t t', t ≤ t' → t' ≤ n → v (.recorded t) = true →
    v (.recorded t') = true ∧ v.SameBits task.system true t' true t
  /-- A template that is taken can be chosen at every step, so that exactly the parents of those
  since the recording are said to have moved. -/
  fair : task.configuration.fairness = true → ∃ chosen : Nat → Encoding.Template,
    (∀ t < n, chosen t ∈ task.templates ∧ Holds v ((chosen t).instantiate t)) ∧
      ∀ t ≤ n, ∀ q < task.system.processes.length, v (.fair q t) = true ↔
        ∃ r s, v.FirstRecord r ∧ r ≤ s ∧ s < t ∧ (chosen s).parent = q

variable {task : Task} {n : Nat} {v : Valuation}

/-- At every step of an unrolling a template that is taken can be chosen, so that the registers of
the movements follow. -/
theorem Unrolls.exists_chosen (unrolls : task.Unrolls n v)
    (liveness : task.configuration.isLiveness = true) (numbered : task.system.Numbered) :
    ∃ chosen : Nat → Encoding.Template, ∀ t < n, chosen t ∈ task.templates ∧
      Holds v ((chosen t).instantiate t) ∧
        (task.configuration.isFair = true → task.Follows (chosen t).parent t v) := by
  have each : ∀ t < n, ∃ made : Encoding.Template, made ∈ task.templates ∧
      Holds v (made.instantiate t) ∧
        (task.configuration.isFair = true → task.Follows made.parent t v) :=
    fun _ before => unrolls.exists_taken liveness numbered before
  let anything := Formula.constant true
  have : Nonempty Encoding.Template := ⟨⟨0, anything, anything, anything, anything⟩⟩
  choose! chosen taken using each
  exact ⟨chosen, taken⟩

/-- The registers of an unrolling tell what has happened at its steps. -/
theorem Unrolls.remembers (unrolls : task.Unrolls n v)
    (liveness : task.configuration.isLiveness = true) (numbered : task.system.Numbered)
    (fits : task.system.Fits) (tracked : Encoding.trackedAtoms task.system = .ok task.tracked) :
    task.Remembers n v := by
  have registers := unrolls.registers liveness numbered fits
  obtain ⟨initial, unrecorded, still⟩ :=
    ((denotes_initial_of_fits numbered fits).holds_iff v).mp unrolls.initial
  have sameBits {shadow shadow' : Bool} {t t' : Nat}
      (same : ∀ a ∈ task.tracked, v (a.sideAt shadow t) = v (a.sideAt shadow' t')) :
      v.SameBits task.system shadow t shadow' t' :=
    .of_tracked numbered fits tracked same
  constructor
  case recorded => exact fun t within => registers.recorded_iff within
  case shadow =>
    intro r first t within after
    have from_r := registers.recordedFrom first (Nat.lt_of_lt_of_le after within)
    exact sameBits (registers.shadow_eq from_r after within)
  case progress =>
    intro r first t within after
    have from_r := registers.recordedFrom first (Nat.lt_of_lt_of_le after within)
    rw [registers.progress_iff within]
    refine exists_congr fun s => and_congr_right fun before => ?_
    rw [from_r.recordedAfter (Nat.le_trans (Nat.le_of_lt before) within), decide_eq_true_iff]
  case unrecorded =>
    intro t within none
    constructor
    · have idle : ∀ s, 0 ≤ s → s < t → v.recordsAt s = false := by
        intro s _ before
        rw [Valuation.recordsAt, none s before, Bool.false_and]
      have kept : v.SameBits task.system true t true 0 :=
        sameBits (registers.shadow_stays (Nat.zero_le t) within idle)
      exact kept.trans (.of_isInitial (unrecorded liveness).shadow initial)
    · rw [← Bool.not_eq_true, registers.progress_iff within]
      rintro ⟨s, before, recorded, _⟩
      obtain ⟨r, since, first⟩ :=
        (registers.recordedAfter_iff (Nat.lt_of_lt_of_le before within)).mp recorded
      have isRecord := first.record
      rw [none r (Nat.lt_of_le_of_lt since before)] at isRecord
      contradiction
  case lasting =>
    intro t t' later within recorded
    exact ⟨registers.recorded_mono later within recorded,
      sameBits (registers.shadow_lasts later within recorded)⟩
  case fair =>
    intro fairness
    have isFair : task.configuration.isFair = true := by
      rw [Configuration.isFair, liveness, fairness, Bool.and_self]
    obtain ⟨chosen, taken⟩ := unrolls.exists_chosen liveness numbered
    refine ⟨chosen, fun t before => ⟨(taken t before).1, (taken t before).2.1⟩, ?_⟩
    intro t within q inside
    have follows (t : Nat) (before : t < n) := (taken t before).2.2 isFair
    rw [registers.fair_iff (still isFair) follows inside within]
    -- A step that is left with a recording is one from the first record on.
    constructor
    · rintro ⟨s, before, recorded, same⟩
      obtain ⟨r, since, first⟩ :=
        (registers.recordedAfter_iff (Nat.lt_of_lt_of_le before within)).mp recorded
      exact ⟨r, s, first, since, before, same⟩
    · rintro ⟨r, s, first, since, before, same⟩
      have recorded : v.recordedAfter s = true :=
        (registers.recordedAfter_iff (Nat.lt_of_lt_of_le before within)).mpr ⟨r, since, first⟩
      exact ⟨s, before, recorded, same⟩

end Task

/-- Where loops are searched for, the registers of every valuation that satisfies the initial
formula and those of the first `n` steps tell what has happened at these steps.  These formulas are
there if the processes under test are. -/
theorem System.registers_remember {text : String} {system : System} {configuration : Configuration}
    (loaded : ModelFile.load text = .ok system) (liveness : configuration.property = .liveness)
    {task : Task} (isBuilt : (Task.build system configuration).2 = .ok task) :
    ((∀ p ∈ configuration.processes, p < system.processes.length) →
      (∃ f, task.initial = .ok f) ∧ ∀ t, t + 1 < Word.limit → ∃ f, task.step t = .ok f) ∧
      ∀ (n : Nat) (v : Valuation), task.Unrolls n v → task.Remembers n v := by
  have numbered := ModelFile.numbered_of_load loaded
  constructor
  · intro valid
    have built := Task.wellBuilt_of_build numbered valid isBuilt
    exact ⟨(Task.denotes_initial built).exists_eq_ok,
      fun _ room => (Task.denotes_step built room).exists_eq_ok⟩
  · intro n v unrolls
    obtain ⟨rfl, rfl, encoded, tracked⟩ := Task.build_ok isBuilt
    exact unrolls.remembers (by simp [Configuration.isLiveness, liveness]) numbered
      (Encoding.fits_of_templates numbered encoded) tracked

/-- Two processes, of which the first one goes to its target and back.  The state is to be recorded
when it gets there and once more after the next step, which the second process takes. -/
theorem System.registers_remember_of_recording_twice :
    let text := "\x7b\"predicates\": \x7b\"x\": 0\x7d, \"processes\": [" ++
      "[\x7b\"source\": 0, \"destination\": 1\x7d, \x7b\"source\": 1, \"destination\": 0\x7d], " ++
        "[\x7b\"source\": 0, \"destination\": 0\x7d]]\x7d"
    let system : System := ⟨.ofList [("x", 0)], .empty,
      [⟨0, [⟨0, 1, .always, []⟩, ⟨1, 0, .always, []⟩]⟩, ⟨1, [⟨0, 0, .always, []⟩]⟩]⟩
    let configuration : Configuration := ⟨.liveness, 1, [0], .all, 3, true, false⟩
    let v : Valuation := fun
      | .location p _ t shadow => p = 0 ∧ if shadow then 2 ≤ t else t = 1 ∨ t = 2
      | .predicate _ bit _ _ => bit = .truth
      | .record t => t = 1 ∨ t = 2
      | .recorded t | .progress t => 2 ≤ t
      | .fair q t => q = 1 ∧ t = 2 ∨ t = 3
      | .wildcard => false
    ModelFile.load text = .ok system ∧ configuration.property = .liveness ∧
      (∀ p ∈ configuration.processes, p < system.processes.length) ∧
        ∃ task, (Task.build system configuration).2 = .ok task ∧
          ((∃ f, task.initial = .ok f) ∧ ∀ t, t + 1 < Word.limit → ∃ f, task.step t = .ok f) ∧
            task.Unrolls 3 v ∧ task.Remembers 3 v := by
  intro text system configuration v
  have loaded : ModelFile.load text = .ok system := by decide +kernel
  obtain ⟨task, isBuilt, unrolls⟩ :
      ∃ task, (Task.build system configuration).2 = .ok task ∧ task.Unrolls 3 v :=
    ⟨_, rfl, by decide +kernel⟩
  have valid : ∀ p ∈ configuration.processes, p < system.processes.length := by decide
  obtain ⟨computed, remembers⟩ := System.registers_remember loaded rfl isBuilt
  exact ⟨loaded, rfl, valid, task, isBuilt, computed valid, unrolls, remembers 3 v unrolls⟩

end Trivalent
