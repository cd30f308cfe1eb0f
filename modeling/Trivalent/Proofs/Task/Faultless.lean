import Trivalent.Proofs.System.Equality
import Trivalent.Proofs.Task.Range
import Trivalent.Proofs.Task.Steps
import Trivalent.Proofs.Witness.Path

/-!
# Checks without faults

A text may name any word as a location.  But a process has one location more than the largest one
that it names, and that number has to be a word; and the name of a location has to be shorter than a
word.  So a configuration that fits a system is checked without faults exactly if the locations are
in the lower half of the words.  Then the formulas of all steps are computed, and the path of every
valuation is read back.
-/

namespace Trivalent

/-! ## Systems with short locations -/

namespace Process

/-- The locations of a process are below a bound exactly if those are that its transitions name. -/
theorem extent_le_iff {process : Process} {bound : Nat} (positive : 0 < bound) :
    process.extent ≤ bound ↔
      ∀ transition ∈ process.transitions,
        transition.source < bound ∧ transition.destination < bound := by
  cases isLast : process.lastLocation? with
  | none =>
      have none : process.transitions = [] := by
        rw [lastLocation?, List.max?_eq_none_iff, List.map_eq_nil_iff] at isLast
        exact isLast
      rw [extent_of_no_transitions none, none]
      simpa using Nat.succ_le_of_lt positive
  | some last =>
      have extent : process.extent = last + 1 := by
        rw [Process.extent, isLast]
      have below : last ≤ bound - 1 ↔ ∀ transition ∈ process.transitions,
          max transition.source transition.destination ≤ bound - 1 :=
        (List.max?_le_iff isLast).trans List.forall_mem_map
      have named (transition : Transition) :
          max transition.source transition.destination ≤ bound - 1 ↔
            transition.source < bound ∧ transition.destination < bound := by
        omega
      rw [extent, ← forall₂_congr fun transition _ => named transition, ← below]
      omega

end Process

namespace System

/-- The locations that a system names are in the lower half of the words. -/
def InLowerHalf (system : System) : Prop :=
  ∀ process ∈ system.processes, ∀ transition ∈ process.transitions,
    transition.source < Nat.pow 2 63 ∧ transition.destination < Nat.pow 2 63

theorem fits_iff {system : System} : system.Fits ↔ system.InLowerHalf :=
  forall₂_congr fun _ _ => Process.extent_le_iff (by decide)

end System

/-! ## Configurations that are validated -/

namespace Configuration

variable {configuration : Configuration} {system : System}

theorem warning?_of_fits (fits : system.Fits) {p : Nat} {process : Process}
    (found : system.processes[p]? = some process) :
    configuration.warning? system p = .ok (if process.extent ≤ configuration.location then
      some (.neverReached p process.extent configuration.location) else none) := by
  rw [warning?, System.process, entryAt, found]
  simp only [bind, Except.bind,
    Process.locationCount_of_fits (fits process (List.mem_of_getElem? found))]
  rfl

theorem warnings_of_fits (fits : system.Fits) {processes : List Nat}
    (valid : ∀ p ∈ processes, p < system.processes.length) :
    (configuration.warnings system processes).2 = .ok () := by
  induction processes with
  | nil => rfl
  | cons p rest ih =>
      obtain ⟨inside, later⟩ := List.forall_mem_cons.mp valid
      obtain ⟨process, found, _⟩ := System.exists_process inside
      rw [warnings, warning?_of_fits fits found]
      exact ih later

theorem validate_of_obstacle {reason : ConfigurationError}
    (obstacle : configuration.obstacle? system = some reason) :
    (configuration.validate system).2 = .error (.configuration reason) := by
  unfold validate
  rw [obstacle]

/-- A system that fits is only refused for what a configuration says. -/
theorem validate_of_fits (fits : system.Fits) (none : configuration.obstacle? system = .none) :
    (configuration.validate system).2 = .ok () := by
  rw [validate_of_no_obstacle none, warnings_of_fits fits (valid_of_obstacle none)]
  rfl

/-- Without an obstacle and without a fault a configuration is valid. -/
theorem validate_of_faultless (none : configuration.obstacle? system = .none)
    (faultless : ∀ fault, (configuration.validate system).2 ≠ .error (.fault fault)) :
    (configuration.validate system).2 = .ok () := by
  rw [validate_of_no_obstacle none] at faultless ⊢
  cases warned : (configuration.warnings system configuration.processes).2 with
  | ok => rfl
  | error fault =>
      rw [warned] at faultless
      exact absurd rfl (faultless fault)

end Configuration

/-! ## Tasks that are computed -/

namespace Task

/-- The formulas of the steps within the bound are computed, and the paths of all valuations are
read back. -/
structure IsComputed (task : Task) : Prop where
  initial : ∃ f, task.initial = .ok f
  step : ∀ t ≤ task.configuration.bound, ∃ f, task.step t = .ok f
  target : ∀ t ≤ task.configuration.bound, ∃ f, task.target t = .ok f
  recording : ∀ t ≤ task.configuration.bound, ∃ f, task.recording t = .ok f
  property : ∀ t ≤ task.configuration.bound, ∃ f, task.property t = .ok f
  path : ∀ t ≤ task.configuration.bound, ∀ v, ∃ path,
    Witness.decode task.system task.configuration.fairness v t = .ok path

theorem WellBuilt.isComputed {task : Task} (built : task.WellBuilt)
    (room : task.configuration.bound + 1 < Word.limit) : task.IsComputed := by
  have later {t : Nat} (within : t ≤ task.configuration.bound) : t + 1 < Word.limit :=
    Nat.lt_of_le_of_lt (Nat.succ_le_succ within) room
  constructor
  case initial => exact (denotes_initial built).exists_eq_ok
  case step => exact fun t within => (denotes_step built (later within)).exists_eq_ok
  case target => exact fun t _ => (denotes_target built t).exists_eq_ok
  case recording => exact fun t within => (denotes_recording built (later within)).exists_eq_ok
  case property => exact fun t _ => (denotes_property built t).exists_eq_ok
  case path => exact fun t _ v => ⟨_, Witness.decode_of_fits built.fits _ v t⟩

end Task

namespace Configuration

/-- A configuration is validated without a fault, and if it is valid then a task is built and
computed. -/
structure Faultless (configuration : Configuration) (system : System) : Prop where
  validated : ∀ fault, (configuration.validate system).2 ≠ .error (.fault fault)
  computed : (configuration.validate system).2 = .ok () →
    ∃ task, (Task.build system configuration).2 = .ok task ∧ task.IsComputed

/-- A check of a loaded system that has a next step behind its bound is without faults exactly if
the configuration is refused for what it says, or the locations of the system are in the lower half
of the words. -/
theorem faultless_iff {text : String} {system : System} {configuration : Configuration}
    (loaded : ModelFile.load text = .ok system)
    (room : configuration.bound + 1 < Word.limit) :
    configuration.Faultless system ↔
      (∃ reason, configuration.obstacle? system = some reason) ∨ system.InLowerHalf := by
  rw [← System.fits_iff]
  cases obstacle : configuration.obstacle? system with
  | some reason =>
      have refused := validate_of_obstacle obstacle
      have faultless : configuration.Faultless system := by
        constructor
        case validated => simp [refused]
        case computed => simp [refused]
      exact iff_of_true faultless (.inl ⟨reason, rfl⟩)
  | none =>
      constructor
      · intro faultless
        right
        have validated := validate_of_faultless obstacle faultless.validated
        obtain ⟨task, isBuilt, _⟩ := faultless.computed validated
        have built := Task.wellBuilt_of_loaded loaded validated isBuilt
        obtain ⟨rfl, _⟩ := Task.build_ok isBuilt
        exact built.fits
      · rintro (⟨_, ⟨⟩⟩ | fits)
        have validated := validate_of_fits fits obstacle
        constructor
        case validated => simp [validated]
        case computed =>
          intro _
          obtain ⟨task, isBuilt, built⟩ := Task.exists_wellBuilt loaded validated fits
          obtain ⟨_, rfl, _⟩ := Task.build_ok isBuilt
          exact ⟨task, isBuilt, built.isComputed room⟩

/-- A process that stays at location 0, or leaves it for the largest location that has a short
name. -/
theorem faultless_iff_of_leaving :
    let text := "\x7b\"predicates\": \x7b\"x\": 0\x7d, \"processes\": [[\x7b\"source\": 0, " ++
      "\"destination\": 0, \"guard\": \"x\"\x7d, " ++
      "\x7b\"source\": 0, \"destination\": 9223372036854775807\x7d]]\x7d"
    let system : System := ⟨.ofList [("x", 0)], .empty,
      [⟨0, [⟨0, 0, .plain (.predicate 0), []⟩, ⟨0, 9223372036854775807, .always, []⟩]⟩]⟩
    let configuration : Configuration :=
      ⟨.liveness, 9223372036854775807, [0], .any, 18446744073709551614, true, false⟩
    ModelFile.load text = .ok system ∧ configuration.bound + 1 < Word.limit ∧
      configuration.obstacle? system = none ∧ configuration.Faultless system := by
  intro text system configuration
  have loaded : ModelFile.load text = .ok system := by decide +kernel
  have room : configuration.bound + 1 < Word.limit := by decide
  have short : system.InLowerHalf := by
    intro process member
    obtain rfl := List.mem_singleton.mp member
    decide
  exact ⟨loaded, room, rfl, (faultless_iff loaded room).mpr (.inr short)⟩

/-- The locations of a system are not counted if the last word is one of them, and they are not
encoded if they are more than half of the words. -/
theorem exists_faulty :
    (∃ text system, ModelFile.load text = .ok system ∧
      ∃ configuration : Configuration, configuration.bound + 1 < Word.limit ∧
        (configuration.validate system).2 = .error (.fault .addOverflow) ∧
          ¬configuration.Faultless system) ∧
    ∃ text system, ModelFile.load text = .ok system ∧
      ∃ configuration : Configuration, configuration.bound + 1 < Word.limit ∧
        (configuration.validate system).2 = .ok () ∧
          (Task.build system configuration).2 = .error .shiftOverflow ∧
            ¬configuration.Faultless system := by
  let text (location : String) :=
    "\x7b\"predicates\": \x7b\x7d, \"processes\": [[\x7b\"source\": 0, \"destination\": " ++
      location ++ "\x7d]]\x7d"
  let system (location : Nat) : System := ⟨.empty, .empty, [⟨0, [⟨0, location, .always, []⟩]⟩]⟩
  let configuration : Configuration := ⟨.reachability, 0, [0], .all, 0, false, false⟩
  constructor
  · have uncounted : (configuration.validate (system 18446744073709551615)).2 =
        .error (.fault .addOverflow) := rfl
    refine ⟨text "18446744073709551615", system 18446744073709551615, by decide +kernel,
      configuration, by decide, uncounted, ?_⟩
    exact fun faultless => faultless.validated _ uncounted
  · have validated : (configuration.validate (system 9223372036854775808)).2 = .ok () := rfl
    have unbuilt : (Task.build (system 9223372036854775808) configuration).2 =
        .error .shiftOverflow := rfl
    refine ⟨text "9223372036854775808", system 9223372036854775808, by decide +kernel,
      configuration, by decide, validated, unbuilt, ?_⟩
    intro faultless
    obtain ⟨task, isBuilt, _⟩ := faultless.computed validated
    exact nomatch unbuilt.symm.trans isBuilt

end Configuration

end Trivalent
