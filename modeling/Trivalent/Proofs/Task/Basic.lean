import Trivalent.CheckError
import Trivalent.Proofs.Encoding.Instance
import Trivalent.Proofs.ModelFile.Reading
import Trivalent.Task

/-!
# Building tasks

A task can be built for every system that fits, and a system for which one is built does fit.  The
templates of a task stand for the transitions of its system and for no others.
-/

namespace Trivalent

namespace Configuration

variable {configuration : Configuration} {system : System}

/-- A configuration without an obstacle tests processes of the system. -/
theorem valid_of_obstacle (none : configuration.obstacle? system = .none) :
    ∀ p ∈ configuration.processes, p < system.processes.length := by
  intro p member
  unfold obstacle? at none
  split at none
  · contradiction
  · rw [Option.map_eq_none_iff, List.find?_eq_none] at none
    simpa using none p member

/-- A valid configuration tests processes of the system. -/
theorem valid_of_validate (validated : (configuration.validate system).2 = .ok ()) :
    ∀ p ∈ configuration.processes, p < system.processes.length := by
  unfold validate at validated
  split at validated
  · contradiction
  · rename_i none
    exact valid_of_obstacle none

end Configuration

namespace Process

theorem extent_of_no_transitions {process : Process} (none : process.transitions = []) :
    process.extent = 1 := by
  simp [extent, lastLocation?, none]

end Process

namespace Encoding

variable {system : System}

/-- The process whose locations are encoded fits. -/
theorem extent_le_of_location {p place step : Nat} {shadow : Bool} {f : Formula}
    {process : Process} (found : system.processes[p]? = some process)
    (encoded : location system p place step shadow = .ok f) :
    process.extent ≤ Nat.pow 2 63 := by
  rcases bind_eq_ok_iff.mp encoded with ⟨width, hasWidth, encoded⟩
  rcases bind_eq_ok_iff.mp encoded with ⟨_, shifted, _⟩
  have small := (Word.shiftRight_eq_ok_iff.mp shifted).2
  rw [System.width, System.process, entryAt, found] at hasWidth
  have counted : process.locationCount.map Word.bitsFor = .ok width := hasWidth
  cases count : process.locationCount with
  | error fault => simp [count, Except.map] at counted
  | ok extent =>
      rcases Process.locationCount_eq_ok_iff.mp count with ⟨rfl, _⟩
      obtain rfl : process.width = width := by
        rw [count] at counted
        exact Except.ok.inj counted
      have narrow : process.width ≤ 63 := Nat.le_of_lt_succ small
      exact Nat.le_trans process.extent_le_two_pow_width
        (Nat.pow_le_pow_right Nat.two_pos narrow)

/-- A system whose transitions are encoded fits. -/
theorem fits_of_templates {made : List Template} (numbered : system.Numbered)
    (encoded : templates system = .ok made) : system.Fits := by
  intro process member
  obtain ⟨_, found⟩ := numbered.exists_of_mem member
  cases none : process.transitions with
  | nil =>
      rw [Process.extent_of_no_transitions none]
      decide
  | cons transition rest =>
      rcases bind_eq_ok_iff.mp encoded with ⟨groups, traversed, _⟩
      obtain ⟨group, _, madeGroup⟩ := exists_mem_of_mapM traversed member
      have listed : transition ∈ process.transitions := by simp [none]
      obtain ⟨_, _, isTemplate⟩ := exists_mem_of_mapM madeGroup listed
      rcases bind_eq_ok_iff.mp isTemplate with ⟨_, old, _⟩
      exact extent_le_of_location found old

/-- The templates of a system stand for its transitions. -/
theorem mem_templates {all : List Template} (numbered : system.Numbered)
    (encoded : templates system = .ok all) {made : Template} :
    made ∈ all ↔ ∃ p process, system.processes[p]? = some process ∧
      ∃ transition ∈ process.transitions, template system p transition = .ok made := by
  rcases bind_eq_ok_iff.mp encoded with ⟨groups, traversed, flat⟩
  obtain rfl := Except.ok.inj flat
  constructor
  · intro member
    rcases List.mem_flatten.mp member with ⟨group, listed, member⟩
    obtain ⟨process, listed, madeGroup⟩ := exists_of_mem_mapM traversed listed
    obtain ⟨_, found⟩ := numbered.exists_of_mem listed
    obtain ⟨transition, isTransition, isTemplate⟩ := exists_of_mem_mapM madeGroup member
    exact ⟨process.id, process, found, transition, isTransition, isTemplate⟩
  · rintro ⟨p, process, found, transition, isTransition, isTemplate⟩
    obtain ⟨group, listed, madeGroup⟩ := exists_mem_of_mapM traversed (List.mem_of_getElem? found)
    rw [← numbered p process found] at isTemplate
    obtain ⟨made', member, same⟩ := exists_mem_of_mapM madeGroup isTransition
    obtain rfl := Except.ok.inj (same.symm.trans isTemplate)
    exact List.mem_flatten.mpr ⟨group, listed, member⟩

theorem exists_templates (numbered : system.Numbered) (fits : system.Fits) :
    ∃ all, templates system = .ok all := by
  have each : ∀ process ∈ system.processes, ∃ group,
      processTemplates system process = .ok group ∧ True := by
    intro process member
    obtain ⟨inside, _⟩ := numbered.exists_of_mem member
    have each : ∀ transition ∈ process.transitions, ∃ made,
        template system process.id transition = .ok made ∧ True := by
      intro transition _
      obtain ⟨made, found, _⟩ := exists_template numbered fits inside transition
      exact ⟨made, found, trivial⟩
    obtain ⟨group, made, _⟩ := mapM_ok each
    exact ⟨group, made, trivial⟩
  obtain ⟨groups, traversed, _⟩ := mapM_ok each
  exact ⟨groups.flatten, by rw [templates, traversed]; rfl⟩

theorem exists_trackedAtoms (fits : system.Fits) :
    ∃ tracked, trackedAtoms system = .ok tracked := by
  have each : ∀ process ∈ system.processes, ∃ atoms,
      (do return locationAtoms (← process.widthWord) process.id : Except Fault (List Atom)) =
        .ok atoms ∧ True := by
    intro process member
    refine ⟨locationAtoms process.width process.id, ?_, trivial⟩
    rw [Process.widthWord_of_fits (fits process member)]
    rfl
  obtain ⟨locations, traversed, _⟩ := mapM_ok each
  exact ⟨_, by rw [trackedAtoms, traversed]; rfl⟩

/-- The atoms of a state are the bits of the predicates and of the locations. -/
theorem forall_tracked {tracked : List Atom} (numbered : system.Numbered) (fits : system.Fits)
    (encoded : trackedAtoms system = .ok tracked) (P : Atom → Prop) :
    (∀ a ∈ tracked, P a) ↔
      (∀ id ∈ system.predicates.values, ∀ bit, P (.predicate id bit current false)) ∧
        ∀ p < system.processes.length, ∀ bit < system.widthOf p,
          P (.location p bit current false) := by
  rcases bind_eq_ok_iff.mp encoded with ⟨locations, traversed, made⟩
  obtain rfl := Except.ok.inj made
  rw [List.forall_mem_append]
  apply and_congr
  · simp only [List.mem_flatMap, System.mem_predicateIds, predicateAtoms, List.mem_cons,
      List.not_mem_nil, or_false]
    constructor
    · intro all id member bit
      cases bit with
      | unknown => exact all _ ⟨id, member, .inl rfl⟩
      | truth => exact all _ ⟨id, member, .inr rfl⟩
    · rintro all a ⟨id, member, rfl | rfl⟩
      · exact all id member .unknown
      · exact all id member .truth
  · have group : ∀ process ∈ system.processes, ∀ atoms,
        (do return locationAtoms (← process.widthWord) process.id : Except Fault (List Atom)) =
          .ok atoms → atoms = locationAtoms process.width process.id := by
      intro process member atoms made
      rw [Process.widthWord_of_fits (fits process member)] at made
      exact (Except.ok.inj made).symm
    constructor
    · intro all p inside bit small
      obtain ⟨process, found, member⟩ := System.exists_process inside
      obtain ⟨atoms, listed, made⟩ := exists_mem_of_mapM traversed member
      rw [group process member atoms made, numbered p process found] at listed
      rw [System.widthOf_of_found found] at small
      exact all _ (List.mem_flatten.mpr
        ⟨_, listed, List.mem_map.mpr ⟨bit, List.mem_range.mpr small, rfl⟩⟩)
    · intro all a member
      rcases List.mem_flatten.mp member with ⟨atoms, listed, member⟩
      obtain ⟨process, isProcess, made⟩ := exists_of_mem_mapM traversed listed
      rw [group process isProcess atoms made] at member
      rcases List.mem_map.mp member with ⟨bit, small, rfl⟩
      obtain ⟨inside, found⟩ := numbered.exists_of_mem isProcess
      apply all process.id inside bit
      rw [System.widthOf_of_found found]
      exact List.mem_range.mp small

end Encoding

namespace Task

/-- A task as it is built for a system that can be encoded and a configuration that is valid. -/
structure WellBuilt (task : Task) : Prop where
  numbered : task.system.Numbered
  fits : task.system.Fits
  valid : ∀ p ∈ task.configuration.processes, p < task.system.processes.length
  templates : Encoding.templates task.system = .ok task.templates
  tracked : Encoding.trackedAtoms task.system = .ok task.tracked

variable {system : System} {configuration : Configuration}

/-- A system that fits has a task. -/
theorem exists_build (numbered : system.Numbered) (fits : system.Fits)
    (configuration : Configuration) :
    ∃ task, (build system configuration).2 = .ok task := by
  obtain ⟨templates, encoded⟩ := Encoding.exists_templates numbered fits
  obtain ⟨tracked, listed⟩ := Encoding.exists_trackedAtoms fits
  refine ⟨{ system, configuration, templates, tracked }, ?_⟩
  rw [build, encoded]
  show (Encoding.trackedAtoms system >>= fun tracked => _) = _
  rw [listed]
  rfl

/-- A task that is built is of its system and configuration, and what it holds is encoded. -/
theorem build_ok {task : Task} (built : (build system configuration).2 = .ok task) :
    task.system = system ∧ task.configuration = configuration ∧
      Encoding.templates system = .ok task.templates ∧
        Encoding.trackedAtoms system = .ok task.tracked := by
  unfold build at built
  split at built
  · contradiction
  · rename_i templates encoded
    rcases bind_eq_ok_iff.mp built with ⟨tracked, listed, made⟩
    obtain rfl := Except.ok.inj made
    exact ⟨rfl, rfl, encoded, listed⟩

theorem wellBuilt_of_build {task : Task} (numbered : system.Numbered)
    (valid : ∀ p ∈ configuration.processes, p < system.processes.length)
    (built : (build system configuration).2 = .ok task) : task.WellBuilt := by
  obtain ⟨rfl, rfl, encoded, listed⟩ := build_ok built
  exact ⟨numbered, Encoding.fits_of_templates numbered encoded, valid, encoded, listed⟩

section Loaded

variable {text : String} (loaded : ModelFile.load text = .ok system)
  (validated : (configuration.validate system).2 = .ok ())

include loaded validated

/-- The task of a loaded system and a validated configuration is well built. -/
theorem wellBuilt_of_loaded {task : Task} (built : (build system configuration).2 = .ok task) :
    task.WellBuilt :=
  wellBuilt_of_build (ModelFile.numbered_of_load loaded)
    (Configuration.valid_of_validate validated) built

/-- There is a task if the system fits. -/
theorem exists_wellBuilt (fits : system.Fits) :
    ∃ task, (build system configuration).2 = .ok task ∧ task.WellBuilt := by
  obtain ⟨task, built⟩ := exists_build (ModelFile.numbered_of_load loaded) fits configuration
  exact ⟨task, built, wellBuilt_of_loaded loaded validated built⟩

end Loaded

end Task

end Trivalent
