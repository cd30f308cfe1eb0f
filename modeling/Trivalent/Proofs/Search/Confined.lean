import Trivalent.Proofs.Search.Exact
import Trivalent.Proofs.Task.Faultless
import Trivalent.Proofs.Task.Interleaving

/-!
# Processes stay in their locations

Unless the locations of a process are a power of two many, some of its bits name no location.  No
unrolling uses such a name.  Its states are a run, whatever is checked and however long it is: the
initial formula puts every process at location 0, a transition leads to a location that it names,
and the processes that do not move stay where they are.

So a process of which a warning says that the target is outside its locations is never there, and a
search for a target that needs such a process finds none.
-/

namespace Trivalent

/-! ## Warnings -/

namespace Configuration

variable {configuration : Configuration} {system : System}

/-- There is a warning that a process never reaches the target. -/
def Warns (configuration : Configuration) (system : System) (p : Nat) : Prop :=
  ∃ count, .neverReached p count configuration.location ∈ (configuration.validate system).1

/-- The target is not met without a process of which there is a warning. -/
def NeedsWarned (configuration : Configuration) (system : System) : Prop :=
  match configuration.combinator with
  | .all => ∃ p ∈ configuration.processes, configuration.Warns system p
  | .any => ∀ p ∈ configuration.processes, configuration.Warns system p

theorem mem_warnings_iff (fits : system.Fits) {processes : List Nat}
    (valid : ∀ p ∈ processes, p < system.processes.length) {event : Event} :
    event ∈ (configuration.warnings system processes).1 ↔
      ∃ p ∈ processes, ∃ process, system.processes[p]? = some process ∧
        process.extent ≤ configuration.location ∧
          event = .neverReached p process.extent configuration.location := by
  induction processes with
  | nil => simp [warnings]
  | cons p rest ih =>
      obtain ⟨inside, later⟩ := List.forall_mem_cons.mp valid
      obtain ⟨process, found, _⟩ := System.exists_process inside
      rw [warnings, warning?_of_fits fits found]
      simp only [List.mem_append, ih later, List.mem_cons, exists_eq_or_imp, found,
        Option.some.injEq, exists_eq_left']
      refine or_congr_left ?_
      split <;> simp [*]

/-- There are warnings of the processes under test that have no such location as the target, if there
is no obstacle to checking the system. -/
theorem warns_iff (fits : system.Fits) {p : Nat} :
    configuration.Warns system p ↔ configuration.obstacle? system = none ∧
      p ∈ configuration.processes ∧ ∃ process, system.processes[p]? = some process ∧
        process.extent ≤ configuration.location := by
  unfold Warns validate
  cases obstacle : configuration.obstacle? system with
  | some reason => simp
  | none =>
      simp only [mem_warnings_iff fits (valid_of_obstacle obstacle), true_and]
      constructor
      · rintro ⟨count, q, listed, process, found, outside, same⟩
        cases same
        exact ⟨listed, process, found, outside⟩
      · rintro ⟨listed, process, found, outside⟩
        exact ⟨process.extent, p, listed, process, found, outside, rfl⟩

/-- A process of which there is a warning is not at the target in any run. -/
theorem Warns.location_ne {p : Nat} (warns : configuration.Warns system p) (fits : system.Fits)
    {wildcard : Bool} {n : Nat} {s : Nat → State} (run : system.IsRun wildcard n s) {t : Nat}
    (within : t ≤ n) : (s t).location p ≠ configuration.location := by
  obtain ⟨_, _, process, found, outside⟩ := (warns_iff fits).mp warns
  have confined := System.location_lt_extent run found t within
  exact Nat.ne_of_lt (Nat.lt_of_lt_of_le confined outside)

/-- A state in which no process of which there is a warning is at the target does not meet it. -/
theorem NeedsWarned.not_meets (needs : configuration.NeedsWarned system) {s : State}
    (away : ∀ p, configuration.Warns system p → s.location p ≠ configuration.location) :
    ¬configuration.Meets s := by
  unfold NeedsWarned at needs
  unfold Meets
  cases combinator : configuration.combinator with
  | all =>
      rw [combinator] at needs
      obtain ⟨p, listed, warns⟩ := needs
      exact fun meets => away p warns (meets p listed)
  | any =>
      rw [combinator] at needs
      rintro ⟨p, listed, meets⟩
      exact away p (needs p listed) meets

end Configuration

/-! ## The states of an unrolling -/

namespace Task

open Encoding (Interleaves)

variable {task : Task} {n : Nat} {v : Valuation}

section Unrollings

variable (numbered : task.system.Numbered) (fits : task.system.Fits)
  (encoded : Encoding.templates task.system = .ok task.templates)

include numbered fits encoded

/-- At every step of an unrolling some process takes one of its transitions, whatever the property
is. -/
theorem Unrolls.exists_interleaves (unrolls : task.Unrolls n v) {t : Nat} (before : t < n) :
    ∃ p process, task.system.processes[p]? = some process ∧
      ∃ transition ∈ process.transitions, Interleaves task.system p transition t v := by
  cases property : task.configuration.property with
  | reachability =>
      obtain ⟨f, isStep, isTrue⟩ := unrolls.steps t before
      exact ((denotesSteps_step numbered fits encoded property).expresses t f isStep v).mp isTrue
  | liveness =>
      have liveness : task.configuration.isLiveness = true := by
        simp [Configuration.isLiveness, property]
      obtain ⟨made, member, ⟨f, moved, isTrue⟩, _⟩ := unrolls.exists_taken liveness numbered before
      obtain ⟨p, process, found, transition, listed, isTemplate⟩ :=
        (Encoding.mem_templates numbered encoded).mp member
      have inside := (List.getElem?_eq_some_iff.mp found).1
      exact ⟨p, process, found, transition, listed,
        (Encoding.instantiate_expresses numbered fits inside isTemplate moved v).mp isTrue⟩

/-- So the states of an unrolling are a run, however long it is. -/
theorem Unrolls.isRun_of_encoded (unrolls : task.Unrolls n v) :
    task.system.IsRun (v .wildcard) n (v.stateAt task.system) := by
  constructor
  · exact (((denotes_initial_of_fits numbered fits).holds_iff v).mp unrolls.initial).1
  · intro t before
    obtain ⟨p, process, found, transition, listed, interleaves⟩ :=
      unrolls.exists_interleaves numbered fits encoded before
    have inside := (List.getElem?_eq_some_iff.mp found).1
    have takes := (Encoding.interleaves_iff_takes fits inside interleaves.room v).mp interleaves
    exact ⟨p, process, found, transition, listed, takes⟩

/-- A process is at one of its locations at every step of an unrolling. -/
theorem Unrolls.location_lt_extent (unrolls : task.Unrolls n v) {p : Nat} {process : Process}
    (found : task.system.processes[p]? = some process) :
    ∀ t ≤ n, (v.stateAt task.system t).location p < process.extent :=
  System.location_lt_extent (unrolls.isRun_of_encoded numbered fits encoded) found

end Unrollings

/-- A target that needs a process of which there is a warning is not met by any unrolling. -/
theorem not_possible_of_needsWarned (built : task.WellBuilt)
    (reachability : task.configuration.property = .reachability)
    (needs : task.configuration.NeedsWarned task.system) (condition : Valuation → Prop) (n : Nat)
    (wildcard : Bool) : ¬task.Possible condition (task.Reaches n) n wildcard := by
  rintro ⟨v, unrolls, _, reaches, _⟩
  rw [reaches_reachability_iff reachability] at reaches
  have run := unrolls.isRun_of_encoded built.numbered built.fits built.templates
  exact needs.not_meets (fun p warns => warns.location_ne built.fits run (Nat.le_refl n)) reaches

end Task

namespace Search

open Trivalent.Action

section

variable {σ : Type} {solver : Sat.Solver σ} {task : Task} (built : task.WellBuilt)
  (reachability : task.configuration.property = .reachability)
  (needs : task.configuration.NeedsWarned task.system)

include built reachability needs

/-- A search for a target that needs a process of which there is a warning has no answer but that
there is none. -/
theorem eq_noneUpTo_of_runs_evaluate (sound : solver.Sound) {start : σ} {feedback : Feedback}
    {search : Search σ}
    (runs : Runs (evaluate solver task 0 (.constant true)) (initial start) feedback search) :
    feedback = .noneUpTo task.configuration.bound := by
  obtain ⟨answers, _⟩ := runs_evaluate built sound (resumes_initial start) Formula.expresses_true
    (Nat.zero_le _) runs
  cases answers with
  | exhausted none never => exact none
  | found n after within least finds =>
      exact absurd finds.possible (Task.not_possible_of_needsWarned built reachability needs _ n true)

/-- Where the bound leaves room it has this answer. -/
theorem exists_runs_evaluate_noneUpTo (correct : solver.Correct)
    (room : task.configuration.bound + 1 < Word.limit) (start : σ) :
    ∃ search, Runs (evaluate solver task 0 (.constant true)) (initial start)
      (.noneUpTo task.configuration.bound) search := by
  obtain ⟨feedback, search, runs, _⟩ := exists_runs_evaluate_initial built correct room start
  obtain rfl := eq_noneUpTo_of_runs_evaluate built reachability needs correct.sound runs
  exact ⟨search, runs⟩

end

end Search

/-- No process leaves its locations: whatever is checked, every unrolling reads back as locations
below the number that the process has.  So the warnings tell the truth: a process of which there is
one is at the target neither in an unrolling nor in a run, and a search for a target that needs such
a process finds none, whatever the bound and the solver are.  That the search ends is said of the
bounds that have a next depth. -/
theorem System.locations_confined {text : String} {system : System}
    (loaded : ModelFile.load text = .ok system) (fits : system.Fits)
    (configuration : Configuration) :
    ∃ task, (Task.build system configuration).2 = .ok task ∧
      (∀ n v, task.Unrolls n v → ∀ t ≤ n, ∀ p process, system.processes[p]? = some process →
        ∃ place count, Encoding.locationOf system v p t = .ok place ∧
          process.locationCount = .ok count ∧ place < count) ∧
      (∀ p, configuration.Warns system p →
        (∀ n v, task.Unrolls n v → ∀ t ≤ n,
          Encoding.locationOf system v p t ≠ .ok configuration.location) ∧
        ∀ wildcard n s, system.IsRun wildcard n s → ∀ t ≤ n,
          (s t).location p ≠ configuration.location) ∧
      ((configuration.validate system).2 = .ok () → configuration.property = .reachability →
        configuration.NeedsWarned system →
          ∀ (σ : Type) (solver : Sat.Solver σ), solver.Correct → ∀ start,
            (∀ feedback search, Action.Runs (Search.evaluate solver task 0 (.constant true))
                (.initial start) feedback search → feedback = .noneUpTo configuration.bound) ∧
              (configuration.bound + 1 < Word.limit →
                ∃ search, Action.Runs (Search.evaluate solver task 0 (.constant true))
                  (.initial start) (.noneUpTo configuration.bound) search)) := by
  have numbered := ModelFile.numbered_of_load loaded
  obtain ⟨task, isBuilt⟩ := Task.exists_build numbered fits configuration
  obtain ⟨rfl, rfl, encoded, _⟩ := Task.build_ok isBuilt
  refine ⟨task, isBuilt, ?_, ?_, ?_⟩
  · intro n v unrolls t within p process found
    have inside := (List.getElem?_eq_some_iff.mp found).1
    exact ⟨_, _, Encoding.locationOf_of_fits fits inside v t,
      Process.locationCount_of_fits (fits process (List.mem_of_getElem? found)),
      unrolls.location_lt_extent numbered fits encoded found t within⟩
  · intro p warns
    obtain ⟨_, _, process, found, _⟩ := (Configuration.warns_iff fits).mp warns
    have inside := (List.getElem?_eq_some_iff.mp found).1
    constructor
    · intro n v unrolls t within isThere
      have run := unrolls.isRun_of_encoded numbered fits encoded
      rw [Encoding.locationOf_of_fits fits inside, Except.ok.injEq] at isThere
      exact warns.location_ne fits run within isThere
    · exact fun wildcard n s run t within => warns.location_ne fits run within
  · intro validated reachability needs σ solver correct start
    have built := Task.wellBuilt_of_loaded loaded validated isBuilt
    constructor
    · intro feedback search runs
      exact Search.eq_noneUpTo_of_runs_evaluate built reachability needs correct.sound runs
    · intro room
      exact Search.exists_runs_evaluate_noneUpTo built reachability needs correct room start

/-- Three locations have names of two bits, so a fourth one, the target, has a name as well.  The
other process does go there. -/
theorem System.locations_confined_of_three_locations :
    let text := "\x7b\"predicates\": \x7b\x7d, \"processes\": " ++
      "[[\x7b\"source\": 0, \"destination\": 2\x7d], [\x7b\"source\": 0, \"destination\": 3\x7d]]\x7d"
    let system : System :=
      ⟨.empty, .empty, [⟨0, [⟨0, 2, .always, []⟩]⟩, ⟨1, [⟨0, 3, .always, []⟩]⟩]⟩
    let configuration : Configuration := ⟨.reachability, 3, [0, 1], .all, 5, false, false⟩
    ModelFile.load text = .ok system ∧ system.Fits ∧ (configuration.validate system).2 = .ok () ∧
      configuration.NeedsWarned system ∧ system.width 0 = .ok 2 ∧
        ∃ task, (Task.build system configuration).2 = .ok task ∧
          ∃ search, Action.Runs (Search.evaluate Sat.splitting task 0 (.constant true)) (.initial [])
            (.noneUpTo 5) search := by
  intro text system configuration
  have loaded : ModelFile.load text = .ok system := by decide +kernel
  have fits : system.Fits := by
    intro process member
    rcases List.mem_cons.mp member with rfl | member
    · decide
    · obtain rfl := List.mem_singleton.mp member
      decide
  have validated : (configuration.validate system).2 = .ok () := by decide +kernel
  have warned : .neverReached 0 3 3 ∈ (configuration.validate system).1 := by decide +kernel
  have needs : configuration.NeedsWarned system := ⟨0, List.mem_cons_self, 3, warned⟩
  obtain ⟨task, isBuilt, _, _, finds⟩ := System.locations_confined loaded fits configuration
  exact ⟨loaded, fits, validated, needs, by decide, task, isBuilt,
    (finds validated rfl needs _ Sat.splitting Sat.splitting_correct []).2 (by decide)⟩

end Trivalent
