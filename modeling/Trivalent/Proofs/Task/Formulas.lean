import Trivalent.Proofs.Task.Basic

/-!
# What the formulas of a task say

The formulas of a task are computed for every step that has a next one.  Of a valuation they say
that it starts in an initial state, that every two states in turn are a step of the system, and that
the registers of a recording follow the states.
-/

namespace Trivalent

/-! ## Lists of formulas -/

namespace Task

/-- Formulas up to the first one that is false say together what all of them do. -/
theorem denotesAll_untilFalse {fs : List (Except Fault Formula)} (each : ∀ f ∈ fs, ∃ g, f = .ok g) :
    DenotesAll (untilFalse fs) fun v => ∀ f ∈ fs, Holds v f := by
  induction fs with
  | nil => exact ⟨[], rfl, by simp⟩
  | cons f rest ih =>
      obtain ⟨g, rfl⟩ := each f List.mem_cons_self
      by_cases false : g.isFalse = true
      · refine ⟨[g], by simp [untilFalse, bind, Except.bind, pure, Except.pure, false], fun v => ?_⟩
        have never : g.eval v = Bool.false := by
          rw [Formula.isFalse_eq_true_iff.mp false]
          simp
        simp [holds_ok, never]
      · obtain ⟨gs, found, meaning⟩ := ih fun f member => each f (List.mem_cons_of_mem _ member)
        refine ⟨g :: gs, ?_, fun v => ?_⟩
        · simp [untilFalse, bind, Except.bind, pure, Except.pure, false, found]
        · simp only [List.forall_mem_cons, meaning v, holds_ok]

/-- Formulas that are there say of a valuation whether one of them is true. -/
theorem exists_traversed {fs : List (Except Fault Formula)} (each : ∀ f ∈ fs, ∃ g, f = .ok g) :
    ∃ gs, fs.mapM id = .ok gs ∧
      ∀ v, (∃ g ∈ gs, g.eval v = true) ↔ ∃ f ∈ fs, Holds v f := by
  have holds : ∀ f ∈ fs, Denotes (id f) fun v => Holds v f := by
    intro f member
    obtain ⟨g, found⟩ := each f member
    exact denotes_holds found
  obtain ⟨gs, traversed, meaning⟩ := mapM_ok holds
  exact ⟨gs, traversed, exists_eval_iff meaning⟩

variable {task : Task}

/-! ## The target -/

/-- The target formula of a step tells whether the state of the step meets the target. -/
theorem denotes_target (built : task.WellBuilt) (step : Nat) :
    Denotes (task.target step) fun v =>
      task.configuration.Meets (v.stateAt task.system step) := by
  have place : ∀ p ∈ task.configuration.processes,
      Denotes (Encoding.location task.system p task.configuration.location step false) fun v =>
        (v.stateAt task.system step).location p = task.configuration.location := by
    intro p member
    exact Encoding.denotes_location built.fits (built.valid p member) _ step false
  have each : ∀ f ∈ task.configuration.processes.map fun p =>
      Encoding.location task.system p task.configuration.location step false, ∃ g, f = .ok g :=
    List.forall_mem_map.mpr fun p member => (place p member).exists_eq_ok
  unfold target Configuration.Meets
  simp only
  cases task.configuration.combinator with
  | all =>
      obtain ⟨fs, found, meaning⟩ := denotesAll_untilFalse each
      refine ⟨.conj fs, by rw [found]; rfl, Formula.expresses_conj fun v => ?_⟩
      simp only [meaning v, List.forall_mem_map]
      exact forall₂_congr fun p member => (place p member).holds_iff v
  | any =>
      obtain ⟨fs, found, meaning⟩ := exists_traversed each
      refine ⟨.disj fs, by rw [found]; rfl, fun v => ?_⟩
      rw [Formula.eval_disj, List.any_eq_true, meaning v]
      simp only [List.mem_map, exists_exists_and_eq_and]
      exact exists_congr fun p => and_congr_right fun member => (place p member).holds_iff v

/-! ## The initial state -/

/-- The registers of a recording at the first step: the shadow is an initial state and nothing has
been recorded. -/
structure Unrecorded (task : Task) (v : Valuation) : Prop where
  shadow : task.system.IsInitial (v.shadowAt task.system 0)
  recorded : v (.recorded 0) = false
  progress : v (.progress 0) = false

/-- No process has moved since the recording. -/
def Still (task : Task) (v : Valuation) : Prop :=
  ∀ p < task.system.processes.length, v (.fair p 0) = false

theorem denotesAll_initialProcess (fits : task.system.Fits) {p : Nat}
    (inside : p < task.system.processes.length) :
    DenotesAll (task.initialProcess p) fun v =>
      (v.stateAt task.system 0).location p = 0 ∧
        (task.configuration.isLiveness = true → (v.shadowAt task.system 0).location p = 0) ∧
          (task.configuration.isFair = true → v (.fair p 0) = false) := by
  have here := Encoding.locationFormula_expresses task.system p 0 0 false
  have shadow := Encoding.locationFormula_expresses task.system p 0 0 true
  unfold initialProcess
  rw [Encoding.location_of_fits fits inside, Encoding.location_of_fits fits inside]
  cases liveness : task.configuration.isLiveness with
  | false =>
      refine ⟨_, rfl, fun v => ?_⟩
      have notFair : task.configuration.isFair = false := by
        simp [Configuration.isFair, liveness]
      simp [notFair, here v]
  | true =>
      refine ⟨_, rfl, fun v => ?_⟩
      cases task.configuration.isFair <;> simp [here v, shadow v]

theorem initialPredicate_expresses (id : Nat) (name : String) (v : Valuation) :
    (∀ f ∈ task.initialPredicate id name, f.eval v = true) ↔
      (v.stateAt task.system 0).status id = task.system.initialStatus name ∧
        (task.configuration.isLiveness = true →
          (v.shadowAt task.system 0).status id = task.system.initialStatus name) := by
  have here := Encoding.statusFormula_expresses task.system id
    (task.system.initialStatus name) 0 false v
  have shadow := Encoding.statusFormula_expresses task.system id
    (task.system.initialStatus name) 0 true v
  unfold initialPredicate
  cases task.configuration.isLiveness <;> simp [here, shadow]

/-- The initial formula of a system that fits tells that the first state is initial and that nothing
has been recorded. -/
theorem denotes_initial_of_fits (numbered : task.system.Numbered) (fits : task.system.Fits) :
    Denotes task.initial fun v =>
      task.system.IsInitial (v.stateAt task.system 0) ∧
        (task.configuration.isLiveness = true → task.Unrecorded v) ∧
          (task.configuration.isFair = true → task.Still v) := by
  have each : ∀ process ∈ task.system.processes,
      DenotesAll (task.initialProcess process.id) fun v =>
        (v.stateAt task.system 0).location process.id = 0 ∧
          (task.configuration.isLiveness = true →
            (v.shadowAt task.system 0).location process.id = 0) ∧
            (task.configuration.isFair = true → v (.fair process.id 0) = false) := by
    intro process member
    exact denotesAll_initialProcess fits (numbered.exists_of_mem member).1
  obtain ⟨groups, traversed, processes⟩ := denotesAll_flatten each
  refine ⟨_, by rw [initial, traversed]; rfl, Formula.expresses_conj fun v => ?_⟩
  rw [List.forall_mem_append, List.forall_mem_append, processes v]
  have registers : (∀ f ∈ (if task.configuration.isLiveness then
      [Formula.neg (.atom (.recorded 0)), Formula.neg (.atom (.progress 0))] else []),
        f.eval v = true) ↔
      (task.configuration.isLiveness = true → v (.recorded 0) = false ∧ v (.progress 0) = false) := by
    cases task.configuration.isLiveness <;> simp
  rw [List.forall_mem_flatMap, registers, numbered.forall_iff (P := fun p =>
    (v.stateAt task.system 0).location p = 0 ∧
      (task.configuration.isLiveness = true → (v.shadowAt task.system 0).location p = 0) ∧
        (task.configuration.isFair = true → v (.fair p 0) = false))]
  constructor
  · rintro ⟨⟨locations, predicates⟩, unrecorded⟩
    have statuses : ∀ entry ∈ task.system.predicates.entries,
        (v.stateAt task.system 0).status entry.2 = task.system.initialStatus entry.1 ∧
          (task.configuration.isLiveness = true →
            (v.shadowAt task.system 0).status entry.2 = task.system.initialStatus entry.1) := by
      intro entry member
      exact (initialPredicate_expresses entry.2 entry.1 v).mp
        (predicates (entry.2, entry.1) (System.mem_predicatesById.mpr member))
    have initial : task.system.IsInitial (v.stateAt task.system 0) := by
      constructor
      · exact fun p inside => (locations p inside).1
      · exact fun entry member => (statuses entry member).1
    have shadow (liveness : task.configuration.isLiveness = true) :
        task.system.IsInitial (v.shadowAt task.system 0) := by
      constructor
      · exact fun p inside => (locations p inside).2.1 liveness
      · exact fun entry member => (statuses entry member).2 liveness
    constructor
    · exact initial
    constructor
    · intro liveness
      exact ⟨shadow liveness, (unrecorded liveness).1, (unrecorded liveness).2⟩
    · intro fair p inside
      exact (locations p inside).2.2 fair
  · rintro ⟨initial, unrecorded, still⟩
    constructor
    · constructor
      · intro p inside
        exact ⟨initial.location p inside,
          fun liveness => (unrecorded liveness).shadow.location p inside,
          fun fair => still fair p inside⟩
      · rintro ⟨id, name⟩ member
        have listed := System.mem_predicatesById.mp member
        apply (initialPredicate_expresses id name v).mpr
        exact ⟨initial.status (name, id) listed,
          fun liveness => (unrecorded liveness).shadow.status (name, id) listed⟩
    · intro liveness
      exact ⟨(unrecorded liveness).recorded, (unrecorded liveness).progress⟩

theorem denotes_initial (built : task.WellBuilt) :
    Denotes task.initial fun v =>
      task.system.IsInitial (v.stateAt task.system 0) ∧
        (task.configuration.isLiveness = true → task.Unrecorded v) ∧
          (task.configuration.isFair = true → task.Still v) :=
  denotes_initial_of_fits built.numbered built.fits

end Task

end Trivalent
