import Trivalent.Encoding.Template
import Trivalent.Proofs.Encoding.Location
import Trivalent.Proofs.Encoding.Term
import Trivalent.Proofs.Formula.Denotation
import Trivalent.Proofs.Formula.Occurrence
import Trivalent.Proofs.System.Accepted
import Trivalent.Proofs.System.Predicates

/-!
# Templates are interleaving steps

The template of a transition is true exactly where its process takes the transition between the
states of the two symbolic steps: the process moves, the guard holds, the updates are allowed, and
all else stays as it is.  Moved in time, it is true exactly where the transition is taken there.
-/

namespace Trivalent

namespace System

theorem widthOf_of_found {system : System} {p : Nat} {process : Process}
    (found : system.processes[p]? = some process) : system.widthOf p = process.width := by
  simp [widthOf, found]

theorem exists_process {system : System} {p : Nat} (inside : p < system.processes.length) :
    ∃ process, system.processes[p]? = some process ∧ process ∈ system.processes :=
  ⟨_, List.getElem?_eq_getElem inside, List.getElem_mem inside⟩

theorem width_of_fits {system : System} (fits : system.Fits) {p : Nat}
    (inside : p < system.processes.length) : system.width p = .ok (system.widthOf p) := by
  obtain ⟨process, found, member⟩ := exists_process inside
  rw [widthOf_of_found found]
  exact width_of_found found (fits process member)

theorem widthOf_pos {system : System} {p : Nat} (inside : p < system.processes.length) :
    0 < system.widthOf p := by
  obtain ⟨process, found, _⟩ := exists_process inside
  rw [widthOf_of_found found]
  exact Word.one_le_bitsFor process.extent

theorem widthOf_lt {system : System} (fits : system.Fits) {p : Nat}
    (inside : p < system.processes.length) : system.widthOf p < Word.width := by
  obtain ⟨process, found, member⟩ := exists_process inside
  rw [widthOf_of_found found]
  exact Word.bitsFor_lt_width (fits process member)

end System

namespace Encoding

variable {system : System}

/-! ## Locations and predicates of a system -/

theorem location_of_fits (fits : system.Fits) {p : Nat} (inside : p < system.processes.length)
    (place step : Nat) (shadow : Bool) :
    location system p place step shadow =
      .ok (locationFormula (system.widthOf p) p place step shadow) :=
  location_of_width (System.width_of_fits fits inside) (System.widthOf_lt fits inside) place step
    shadow

/-- Where a process is can be read back. -/
theorem locationOf_of_fits (fits : system.Fits) {p : Nat} (inside : p < system.processes.length)
    (v : Valuation) (step : Nat) :
    locationOf system v p step = .ok ((v.stateAt system step).location p) :=
  locationOf_of_width (System.width_of_fits fits inside) v step false

theorem locationFormula_expresses (system : System) (p place step : Nat) (shadow : Bool) :
    (locationFormula (system.widthOf p) p place step shadow).Expresses fun v =>
      (v.readAt system shadow step).location p = place := by
  intro v
  rw [eval_locationFormula, decide_eq_true_iff]
  rfl

/-- A location formula tells where a process is. -/
theorem denotes_location (fits : system.Fits) {p : Nat} (inside : p < system.processes.length)
    (place step : Nat) (shadow : Bool) :
    Denotes (location system p place step shadow) fun v =>
      (v.readAt system shadow step).location p = place :=
  ⟨_, location_of_fits fits inside place step shadow,
    locationFormula_expresses system p place step shadow⟩

/-- A status formula tells the status of a predicate. -/
theorem statusFormula_expresses (system : System) (id : Nat) (status : Status) (step : Nat)
    (shadow : Bool) :
    (statusFormula id status step shadow).Expresses fun v =>
      (v.readAt system shadow step).status id = status := by
  intro v
  rw [eval_statusFormula, decide_eq_true_iff]
  rfl

/-! ## What a transition leaves alone -/

theorem keepsStatus_expresses (id : Nat) :
    (keepsStatus id).Expresses fun v =>
      (v.stateAt system next).status id = (v.stateAt system current).status id := by
  intro v
  have known : ∀ status step, (statusFormula id status step false).eval v =
      decide ((v.stateAt system step).status id = status) := by
    intro status step
    rw [eval_statusFormula]
    rfl
  simp only [keepsStatus, List.map_cons, List.map_nil, Formula.eval_disj, List.any_cons,
    List.any_nil, Formula.eval_conj, List.all_cons, List.all_nil, known]
  cases (v.stateAt system current).status id <;> cases (v.stateAt system next).status id <;> decide

theorem frame_expresses (system : System) (modified : List Nat) :
    (frame system modified).Expresses fun v =>
      ∀ id ∈ system.predicates.values, id ∉ modified →
        (v.stateAt system next).status id = (v.stateAt system current).status id := by
  apply Formula.expresses_conj
  intro v
  simp only [List.forall_mem_map, List.mem_filter, System.mem_predicateIds, Bool.not_eq_true',
    List.contains_eq_mem, decide_eq_false_iff_not, and_imp]
  exact forall₃_congr fun id _ _ => keepsStatus_expresses id v

theorem keepsLocation_iff (v : Valuation) (p : Nat) :
    (∀ f ∈ keepsLocation (system.widthOf p) p, f.eval v = true) ↔
      (v.stateAt system next).location p = (v.stateAt system current).location p := by
  simp only [keepsLocation, List.forall_mem_map, List.mem_range, Formula.eval_iff,
    Formula.eval_atom, beq_iff_eq]
  exact Iff.trans (forall₂_congr fun bit _ => eq_comm) number_eq_iff.symm

/-- The processes other than one keep their locations. -/
theorem denotes_idle (numbered : system.Numbered) (fits : system.Fits) (active : Nat) :
    Denotes (idle system active) fun v =>
      ∀ q < system.processes.length, q ≠ active →
        (v.stateAt system next).location q = (v.stateAt system current).location q := by
  have each : ∀ process ∈ system.processes.filter fun p => p.id != active,
      DenotesAll (do return keepsLocation (← process.widthWord) process.id) fun v =>
        (v.stateAt system next).location process.id =
          (v.stateAt system current).location process.id := by
    intro process member
    have listed := (List.mem_filter.mp member).1
    obtain ⟨_, found⟩ := numbered.exists_of_mem listed
    refine ⟨keepsLocation process.width process.id, ?_, fun v => ?_⟩
    · rw [Process.widthWord_of_fits (fits process listed)]
      rfl
    · rw [← System.widthOf_of_found found]
      exact keepsLocation_iff v process.id
  obtain ⟨others, traversed, meaning⟩ := denotesAll_flatten each
  refine ⟨.conj others.flatten, ?_, Formula.expresses_conj fun v => ?_⟩
  · rw [idle, traversed]
    rfl
  · simp only [meaning v, List.mem_filter, bne_iff_ne, and_imp]
    exact numbered.forall_iff (P := fun q => q ≠ active →
      (v.stateAt system next).location q = (v.stateAt system current).location q)

/-! ## Transitions -/

theorem operation_expresses (transition : Transition) :
    (operation system transition).Expresses fun v =>
      transition.guard.holds (v .wildcard) (v.stateAt system current).status = true ∧
        (∀ assignment ∈ transition.assignments,
          assignment.value.allows (v .wildcard) (v.stateAt system current).status
            ((v.stateAt system next).status assignment.predicate) = true) ∧
        ∀ id ∈ system.predicates.values,
          (∀ assignment ∈ transition.assignments, assignment.predicate ≠ id) →
            (v.stateAt system next).status id = (v.stateAt system current).status id := by
  apply Formula.expresses_conj
  intro v
  have unassigned : ∀ id, id ∉ transition.assignments.map (·.predicate) ↔
      ∀ assignment ∈ transition.assignments, assignment.predicate ≠ id := by
    intro id
    simp
  have kept := frame_expresses system (transition.assignments.map (·.predicate)) v
  simp only [unassigned] at kept
  simp only [List.forall_mem_append, List.forall_mem_map, List.forall_mem_singleton, eval_guard,
    eval_update, kept, and_assoc]
  rfl

/-- The template of a transition is true exactly where the transition is taken. -/
theorem exists_template (numbered : system.Numbered) (fits : system.Fits) {p : Nat}
    (inside : p < system.processes.length) (transition : Transition) :
    ∃ made, template system p transition = .ok made ∧ made.parent = p ∧
      made.formula.Expresses fun v =>
        system.Takes (v .wildcard) p transition (v.stateAt system current)
          (v.stateAt system next) := by
  obtain ⟨others, idles, idling⟩ := denotes_idle numbered fits p
  let made : Template := {
    parent := p
    old := locationFormula (system.widthOf p) p transition.source current false
    operation := operation system transition
    new := locationFormula (system.widthOf p) p transition.destination next false
    idle := others }
  refine ⟨made, ?_, rfl, ?_⟩
  · rw [template, location_of_fits fits inside, location_of_fits fits inside, idles]
    rfl
  · apply Formula.expresses_conj
    intro v
    simp only [List.forall_mem_cons, List.not_mem_nil, false_imp_iff, implies_true, and_true]
    rw [locationFormula_expresses system p transition.source current false v,
      locationFormula_expresses system p transition.destination next false v,
      operation_expresses transition v, idling v]
    constructor
    · rintro ⟨source, ⟨guard, updates, frame⟩, destination, idle⟩
      exact ⟨source, destination, guard, updates, frame, idle⟩
    · intro taken
      exact ⟨taken.source, ⟨taken.guard, taken.updates, taken.frame⟩, taken.destination, taken.idle⟩

end Encoding

end Trivalent
