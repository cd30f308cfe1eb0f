import Trivalent.CheckError
import Trivalent.Witness

/-!
# Faults of formulas

The formulas of a task and of a witness are made by arithmetic on words and by looking up processes.
So where one of them cannot be made, a number leaves its range or a position lies outside a list; it
is never a search that is asked for what it cannot do.
-/

namespace Trivalent

/-- A number leaves its range, or a position lies outside a list. -/
def Fault.IsRange : Fault → Prop
  | .startMismatch _ _ => False
  | .cannotShrink => False
  | _ => True

/-- A computation only has faults of this kind. -/
def RangeFaults {α : Type} (value : Except Fault α) : Prop :=
  ∀ fault, value = .error fault → fault.IsRange

section

variable {α β : Type}

theorem rangeFaults_ok {a : α} : RangeFaults (.ok a) :=
  fun _ => nofun

theorem rangeFaults_pure {a : α} : RangeFaults (pure a) :=
  rangeFaults_ok

theorem RangeFaults.bind {value : Except Fault α} {next : α → Except Fault β}
    (early : RangeFaults value) (late : ∀ a, RangeFaults (next a)) : RangeFaults (value >>= next) := by
  cases value with
  | error fault =>
      rintro _ ⟨⟩
      exact early fault rfl
  | ok a => exact late a

theorem RangeFaults.map {value : Except Fault α} (early : RangeFaults value) (f : α → β) :
    RangeFaults (value.map f) := by
  cases value with
  | error fault =>
      rintro _ ⟨⟩
      exact early fault rfl
  | ok a => exact rangeFaults_ok

theorem RangeFaults.mapM {f : α → Except Fault β} (each : ∀ a, RangeFaults (f a)) (entries : List α) :
    RangeFaults (entries.mapM f) := by
  induction entries with
  | nil => exact rangeFaults_pure
  | cons a rest ih =>
      rw [List.mapM_cons]
      exact (each a).bind fun _ => ih.bind fun _ => rangeFaults_pure

theorem RangeFaults.ite {condition : Prop} [Decidable condition] {value other : Except Fault α}
    (faults : RangeFaults value) (faultsToo : RangeFaults other) :
    RangeFaults (if condition then value else other) := by
  split
  · exact faults
  · exact faultsToo

/-! ## Arithmetic and positions -/

theorem rangeFaults_add (a b : Nat) : RangeFaults (Word.add a b) := by
  intro fault isFault
  unfold Word.add at isFault
  split at isFault
  · contradiction
  · cases isFault
    trivial

theorem rangeFaults_shiftRight (a amount : Nat) : RangeFaults (Word.shiftRight a amount) := by
  intro fault isFault
  unfold Word.shiftRight at isFault
  split at isFault
  · contradiction
  · cases isFault
    trivial

theorem rangeFaults_entryAt (entries : List α) (index : Nat) : RangeFaults (entryAt entries index) := by
  intro fault isFault
  unfold entryAt at isFault
  split at isFault
  · contradiction
  · cases isFault
    trivial

end

theorem Process.rangeFaults_locationCount (process : Process) :
    RangeFaults process.locationCount := by
  unfold locationCount
  split
  · exact rangeFaults_ok
  · exact rangeFaults_add _ 1

theorem System.rangeFaults_width (system : System) (index : Nat) :
    RangeFaults (system.width index) :=
  (rangeFaults_entryAt _ index).bind fun process => process.rangeFaults_locationCount.map _

theorem Formula.rangeFaults_shiftWord (steps : Nat) (f : Formula) :
    RangeFaults (f.shiftWord steps) := by
  intro fault isFault
  obtain ⟨_, rfl⟩ := shiftWord_eq_error_iff.mp isFault
  trivial

theorem Encoding.rangeFaults_location (system : System) (process location step : Nat)
    (shadow : Bool) : RangeFaults (Encoding.location system process location step shadow) :=
  (system.rangeFaults_width process).bind fun width => (rangeFaults_shiftRight _ width).bind fun _ =>
    rangeFaults_pure

/-! ## Tasks -/

namespace Task

theorem rangeFaults_untilFalse {values : List (Except Fault Formula)}
    (each : ∀ value ∈ values, RangeFaults value) : RangeFaults (untilFalse values) := by
  induction values with
  | nil => exact rangeFaults_ok
  | cons first rest ih =>
      obtain ⟨here, later⟩ := List.forall_mem_cons.mp each
      exact here.bind fun f => .ite rangeFaults_pure ((ih later).bind fun _ => rangeFaults_pure)

variable (task : Task)

theorem rangeFaults_initial : RangeFaults task.initial := by
  have each (process : Nat) : RangeFaults (task.initialProcess process) := by
    refine (Encoding.rangeFaults_location _ process 0 0 false).bind fun here => .ite ?_ rangeFaults_pure
    exact (Encoding.rangeFaults_location _ process 0 0 true).bind fun _ => rangeFaults_pure
  exact (RangeFaults.mapM (fun p : Process => each p.id) _).bind fun _ => rangeFaults_pure

theorem rangeFaults_target (step : Nat) : RangeFaults (task.target step) := by
  have places : ∀ value ∈ task.configuration.processes.map fun process =>
      Encoding.location task.system process task.configuration.location step false,
      RangeFaults value :=
    List.forall_mem_map.mpr fun process _ => Encoding.rangeFaults_location _ process _ step false
  unfold target
  cases task.configuration.combinator with
  | all => exact (rangeFaults_untilFalse places).bind fun _ => rangeFaults_pure
  | any =>
      dsimp only
      rw [List.mapM_map]
      refine RangeFaults.bind (.mapM (fun process => ?_) _) fun _ => rangeFaults_pure
      exact Encoding.rangeFaults_location _ process _ step false

theorem rangeFaults_step (step : Nat) : RangeFaults (task.step step) := by
  have moves (template : Encoding.Template) : RangeFaults (task.move step template) := by
    refine (Formula.rangeFaults_shiftWord step template.formula).bind fun taken => ?_
    exact .ite ((rangeFaults_add step 1).bind fun _ => rangeFaults_pure) rangeFaults_pure
  have recording : RangeFaults (task.recording step) :=
    (rangeFaults_add step 1).bind fun _ => (task.rangeFaults_target step).bind fun _ =>
      rangeFaults_pure
  exact (RangeFaults.mapM moves _).bind fun _ =>
    .ite (recording.bind fun _ => rangeFaults_pure) rangeFaults_pure

theorem rangeFaults_property (step : Nat) : RangeFaults (task.property step) := by
  unfold property
  cases task.configuration.property with
  | reachability => exact task.rangeFaults_target step
  | liveness => exact rangeFaults_ok

end Task

/-! ## Witnesses -/

namespace Witness

theorem rangeFaults_decode (system : System) (fairness : Bool) (v : Valuation) (last : Nat) :
    RangeFaults (decode system fairness v last) := by
  refine .mapM (fun step => RangeFaults.bind (.mapM (fun p => ?_) _) fun _ => rangeFaults_pure) _
  exact (system.rangeFaults_width p).bind fun _ => rangeFaults_pure

theorem rangeFaults_formula (system : System) (witness : List WitnessStep) :
    RangeFaults (formula system witness) := by
  refine (Task.rangeFaults_untilFalse ?_).bind fun _ => rangeFaults_pure
  intro value member
  obtain ⟨s, _, pinned⟩ := List.mem_flatMap.mp member
  rcases List.mem_append.mp pinned with place | status
  · obtain ⟨_, _, rfl⟩ := List.mem_map.mp place
    exact Encoding.rangeFaults_location _ _ _ _ false
  · obtain ⟨_, _, found⟩ := List.mem_filterMap.mp status
    dsimp only at found
    split at found
    · contradiction
    · obtain ⟨_, _, rfl⟩ := Option.map_eq_some_iff.mp found
      exact rangeFaults_ok

end Witness

/-! ## Configurations -/

namespace Configuration

theorem rangeFaults_warnings (configuration : Configuration) (system : System)
    (processes : List Nat) : RangeFaults (configuration.warnings system processes).2 := by
  have each (process : Nat) : RangeFaults (configuration.warning? system process) := by
    refine RangeFaults.bind ?_ fun _ => rangeFaults_pure
    exact (rangeFaults_entryAt _ process).bind Process.rangeFaults_locationCount
  induction processes with
  | nil => exact rangeFaults_ok
  | cons process rest ih =>
      unfold warnings
      split
      · rename_i fault isFault
        rintro _ ⟨⟩
        exact each process fault isFault
      · exact ih

/-- Without an obstacle only the warnings can go wrong. -/
theorem validate_of_no_obstacle {configuration : Configuration} {system : System}
    (none : configuration.obstacle? system = .none) :
    (configuration.validate system).2 =
      (configuration.warnings system configuration.processes).2.mapError .fault := by
  unfold validate
  rw [none]

/-- A configuration is refused for what it says, or because a number leaves its range. -/
theorem validate_error {configuration : Configuration} {system : System} {error : CheckError}
    (refused : (configuration.validate system).2 = .error error) :
    (∃ reason, .configuration reason = error) ∨
      ∃ fault : Fault, fault.IsRange ∧ .fault fault = error := by
  cases obstacle : configuration.obstacle? system with
  | some reason =>
      unfold validate at refused
      rw [obstacle] at refused
      exact .inl ⟨reason, Except.error.inj refused⟩
  | none =>
      have faults := configuration.rangeFaults_warnings system configuration.processes
      rw [validate_of_no_obstacle obstacle] at refused
      cases warned : (configuration.warnings system configuration.processes).2 with
      | ok =>
          rw [warned] at refused
          cases refused
      | error fault =>
          rw [warned] at refused
          exact .inr ⟨fault, faults fault warned, Except.error.inj refused⟩

end Configuration

end Trivalent
