import Trivalent.Proofs.System.Equality
import Trivalent.Proofs.Task.Basic

/-!
# Interleaving steps

The template of a transition that is moved to a step is true exactly where one process takes the
transition: read back from the valuation, the process goes from the source to the destination, the
guard holds, the updates are made, and every other location and status stays what it is.  So the step
formula of a search for a target is true exactly where some process takes one of its transitions.  The
last word has no next step: a formula that is there nevertheless is false.
-/

namespace Trivalent

namespace Encoding

/-- From a step of a valuation to the next one process `p` takes a transition, and nothing else
happens. -/
structure Interleaves (system : System) (p : Nat) (transition : Transition) (step : Nat)
    (v : Valuation) : Prop where
  room : step + 1 < Word.limit
  source : locationOf system v p step = .ok transition.source
  destination : locationOf system v p (step + 1) = .ok transition.destination
  idle : ∀ q < system.processes.length, q ≠ p →
    ∃ place, locationOf system v q step = .ok place ∧ locationOf system v q (step + 1) = .ok place
  guard : (guard transition.guard step).eval v = true
  updates : ∀ assignment ∈ transition.assignments, ((update assignment).shift step).eval v = true
  frame : ∀ id ∈ system.predicateIds,
    (∀ assignment ∈ transition.assignments, assignment.predicate ≠ id) →
      decodeStatus v id (step + 1) = decodeStatus v id step

/-- There is a formula for every step that has a next one, and the formula of a step says what `P`
does of the step. -/
structure DenotesSteps (computed : Nat → Except Fault Formula) (P : Nat → Valuation → Prop) :
    Prop where
  exists_formula : ∀ step, step + 1 < Word.limit → ∃ f, computed step = .ok f
  expresses : ∀ step f, computed step = .ok f → f.Expresses (P step)

variable {system : System} {p : Nat} {transition : Transition} {made : Template} {step : Nat}

/-! ## Steps read back -/

/-- An update that is moved to a step says what it allows there. -/
theorem eval_shift_update (v : Valuation) (assignment : Assignment) (step : Nat) :
    ((update assignment).shift step).eval v =
      assignment.value.allows (v .wildcard) (v.stateAt system step).status
        ((v.stateAt system (step + 1)).status assignment.predicate) := by
  have before : current + step = step := Nat.zero_add step
  have after : next + step = step + 1 := Nat.add_comm next step
  rw [Formula.eval_shift, eval_update]
  show assignment.value.allows (v .wildcard) ((v.later step).readAt system false current).status
    (((v.later step).readAt system false next).status assignment.predicate) = _
  rw [Valuation.readAt_later, Valuation.readAt_later, before, after]

/-- What is read back from two steps is a step of the system. -/
theorem interleaves_iff_takes (fits : system.Fits) (inside : p < system.processes.length)
    (room : step + 1 < Word.limit) (v : Valuation) :
    Interleaves system p transition step v ↔
      system.Takes (v .wildcard) p transition (v.stateAt system step)
        (v.stateAt system (step + 1)) := by
  have read {q : Nat} (inside : q < system.processes.length) (t place : Nat) :
      locationOf system v q t = .ok place ↔ (v.stateAt system t).location q = place := by
    rw [locationOf_of_fits fits inside, Except.ok.injEq]
  have holds : (guard transition.guard step).eval v =
      transition.guard.holds (v .wildcard) (v.stateAt system step).status :=
    eval_guard v transition.guard step
  constructor
  · intro interleaves
    constructor
    case source => exact (read inside _ _).mp interleaves.source
    case destination => exact (read inside _ _).mp interleaves.destination
    case guard => exact holds ▸ interleaves.guard
    case updates =>
      exact fun assignment member =>
        eval_shift_update v assignment step ▸ interleaves.updates assignment member
    case frame =>
      exact fun id member => interleaves.frame id (System.mem_predicateIds.mpr member)
    case idle =>
      intro q insideToo other
      obtain ⟨place, before, after⟩ := interleaves.idle q insideToo other
      exact ((read insideToo _ _).mp after).trans ((read insideToo _ _).mp before).symm
  · intro takes
    constructor
    case room => exact room
    case source => exact (read inside _ _).mpr takes.source
    case destination => exact (read inside _ _).mpr takes.destination
    case guard => exact holds ▸ takes.guard
    case updates =>
      exact fun assignment member =>
        eval_shift_update v assignment step ▸ takes.updates assignment member
    case frame =>
      exact fun id member => takes.frame id (System.mem_predicateIds.mp member)
    case idle =>
      intro q insideToo other
      exact ⟨_, (read insideToo _ _).mpr rfl,
        (read insideToo _ _).mpr (takes.idle q insideToo other)⟩

/-! ## Templates at a step -/

/-- Unless it is false, a location formula has the first bit of the location. -/
theorem mem_occurrences_locationFormula {width place : Nat} {shadow : Bool} (bits : 0 < width)
    (possible : (locationFormula width p place step shadow).isFalse = false) :
    .location p 0 step shadow ∈ (locationFormula width p place step shadow).occurrences := by
  unfold locationFormula at possible ⊢
  split at possible
  · contradiction
  rename_i fits
  rw [if_neg fits]
  have literal (bit : Nat) :
      (if locationBit width place bit then Formula.atom (.location p bit step shadow)
        else (Formula.atom (.location p bit step shadow)).neg).isFalse = false := by
    split <;> rfl
  refine Formula.mem_occurrences_conj ?_
    (List.mem_map.mpr ⟨0, List.mem_range.mpr bits, rfl⟩) ?_
  · simpa using fun bit _ => literal bit
  · dsimp only
    split
    · exact List.mem_singleton_self _
    · exact List.mem_singleton_self _

/-- Behind the last step no transition is taken: either its template cannot be moved there, or one of
the parts of the template is false. -/
theorem eval_eq_false_of_instantiate (fits : system.Fits) (inside : p < system.processes.length)
    (found : template system p transition = .ok made) (last : ¬step + 1 < Word.limit) {f : Formula}
    (moved : made.instantiate step = .ok f) (v : Valuation) : f.eval v = false := by
  rcases bind_eq_ok_iff.mp found with ⟨old, _, found⟩
  rcases bind_eq_ok_iff.mp found with ⟨new, isNew, found⟩
  rcases bind_eq_ok_iff.mp found with ⟨idle, _, found⟩
  obtain rfl := Except.ok.inj found
  rw [location_of_fits fits inside] at isNew
  obtain ⟨shiftable, rfl⟩ := Formula.shiftWord_eq_ok_iff.mp moved
  rw [Formula.eval_shift, Template.formula, Formula.eval_conj, List.all_eq_false]
  -- A part that is false makes the template false, and otherwise the new location is moved.
  cases possible : [old, operation system transition, new, idle].any Formula.isFalse with
  | true =>
      obtain ⟨part, member, isFalse⟩ := List.any_eq_true.mp possible
      rw [Formula.isFalse_eq_true_iff.mp isFalse] at member
      exact ⟨_, member, by simp⟩
  | false =>
      have listed : new ∈ [old, operation system transition, new, idle] := by simp
      have notFalse : new.isFalse = false := by
        simpa using List.any_eq_false.mp possible new listed
      obtain rfl := Except.ok.inj isNew
      have occurs := Formula.mem_occurrences_conj possible listed
        (mem_occurrences_locationFormula (System.widthOf_pos inside) notFalse)
      have small : next + step < Word.limit := shiftable _ occurs next rfl
      exact absurd (Nat.add_comm next step ▸ small) last

/-- A template that is moved to a step says that its transition is taken there. -/
theorem instantiate_expresses (numbered : system.Numbered) (fits : system.Fits)
    (inside : p < system.processes.length) (found : template system p transition = .ok made)
    {f : Formula} (moved : made.instantiate step = .ok f) :
    f.Expresses (Interleaves system p transition step) := by
  intro v
  by_cases room : step + 1 < Word.limit
  · obtain ⟨made', isTemplate, _, takes⟩ := exists_instance numbered fits inside transition
    obtain rfl := Except.ok.inj (found.symm.trans isTemplate)
    rw [interleaves_iff_takes fits inside room, ← (takes step room).holds_iff, moved, holds_ok]
  · rw [eval_eq_false_of_instantiate fits inside found room moved]
    exact iff_of_false Bool.false_ne_true fun interleaves => room interleaves.room

/-- The template of a transition says at every step that the transition is taken. -/
theorem denotesSteps_instantiate (numbered : system.Numbered) (fits : system.Fits)
    (inside : p < system.processes.length) (found : template system p transition = .ok made) :
    DenotesSteps made.instantiate (Interleaves system p transition) where
  exists_formula step room := by
    obtain ⟨made', isTemplate, _, takes⟩ := exists_instance numbered fits inside transition
    obtain rfl := Except.ok.inj (found.symm.trans isTemplate)
    exact (takes step room).exists_eq_ok
  expresses _ _ moved := instantiate_expresses numbered fits inside found moved

end Encoding

namespace Task

open Encoding

variable {task : Task}

/-- Where a target is searched for a step is that one of the templates is taken. -/
theorem step_of_reachability (reachability : task.configuration.property = .reachability)
    (step : Nat) :
    task.step step =
      task.templates.mapM (fun made => made.instantiate step) >>= fun moves => .ok (.disj moves) := by
  have notLiveness : task.configuration.isLiveness = false := by
    simp [Configuration.isLiveness, reachability]
  have notFair : task.configuration.isFair = false := by
    simp [Configuration.isFair, notLiveness]
  have move : task.move step = fun made => made.instantiate step := by
    funext made
    unfold Task.move
    rw [notFair]
    exact bind_pure _
  unfold Task.step
  rw [move, notLiveness]
  rfl

/-- Where a target is searched for a step says that some process takes one of its transitions. -/
theorem denotesSteps_step (numbered : task.system.Numbered) (fits : task.system.Fits)
    (encoded : Encoding.templates task.system = .ok task.templates)
    (reachability : task.configuration.property = .reachability) :
    DenotesSteps task.step fun step v => ∃ p process, task.system.processes[p]? = some process ∧
      ∃ transition ∈ process.transitions, Interleaves task.system p transition step v := by
  have each : ∀ made ∈ task.templates, ∃ p process, task.system.processes[p]? = some process ∧
      ∃ transition ∈ process.transitions,
        DenotesSteps made.instantiate (Interleaves task.system p transition) := by
    intro made member
    obtain ⟨p, process, found, transition, listed, isTemplate⟩ :=
      (mem_templates numbered encoded).mp member
    have inside := (List.getElem?_eq_some_iff.mp found).1
    exact ⟨p, process, found, transition, listed,
      denotesSteps_instantiate numbered fits inside isTemplate⟩
  constructor
  case exists_formula =>
    intro step room
    have all : ∀ made ∈ task.templates, ∃ f, made.instantiate step = .ok f ∧ True := by
      intro made member
      obtain ⟨_, _, _, _, _, denotes⟩ := each made member
      obtain ⟨f, moved⟩ := denotes.exists_formula step room
      exact ⟨f, moved, trivial⟩
    obtain ⟨moves, traversed, _⟩ := mapM_ok all
    exact ⟨.disj moves, by rw [step_of_reachability reachability, traversed]; rfl⟩
  case expresses =>
    intro step f isStep v
    rw [step_of_reachability reachability, bind_eq_ok_iff] at isStep
    obtain ⟨moves, traversed, isDisjunction⟩ := isStep
    obtain rfl := Except.ok.inj isDisjunction
    rw [Formula.eval_disj, List.any_eq_true]
    constructor
    · rintro ⟨g, member, isTrue⟩
      obtain ⟨made, isTemplate, moved⟩ := exists_of_mem_mapM traversed member
      obtain ⟨p, process, found, transition, listed, denotes⟩ := each made isTemplate
      exact ⟨p, process, found, transition, listed, (denotes.expresses step g moved v).mp isTrue⟩
    · rintro ⟨p, process, found, transition, listed, interleaves⟩
      have inside := (List.getElem?_eq_some_iff.mp found).1
      obtain ⟨made, isTemplate, _⟩ := exists_template numbered fits inside transition
      obtain ⟨g, member, moved⟩ := exists_mem_of_mapM traversed
        ((mem_templates numbered encoded).mpr ⟨p, process, found, transition, listed, isTemplate⟩)
      exact ⟨g, member,
        (instantiate_expresses numbered fits inside isTemplate moved v).mpr interleaves⟩

end Task

/-- A transition is encoded as exactly one interleaving step: at every step its template is true where
its process takes the transition and nothing else happens.  Where a target is searched for, the formula
of a step is true where some process takes one of its transitions. -/
theorem System.denotesSteps_interleaves {text : String} {system : System}
    (loaded : ModelFile.load text = .ok system) (fits : system.Fits) :
    (∀ p process, system.processes[p]? = some process → ∀ transition ∈ process.transitions,
      ∃ made, Encoding.template system p transition = .ok made ∧
        Encoding.DenotesSteps made.instantiate (Encoding.Interleaves system p transition)) ∧
      ∀ configuration : Configuration, configuration.property = .reachability →
        ∃ task, (Task.build system configuration).2 = .ok task ∧
          Encoding.DenotesSteps task.step fun step v =>
            ∃ p process, system.processes[p]? = some process ∧
              ∃ transition ∈ process.transitions,
                Encoding.Interleaves system p transition step v := by
  have numbered := ModelFile.numbered_of_load loaded
  constructor
  · intro p process found transition _
    have inside := (List.getElem?_eq_some_iff.mp found).1
    obtain ⟨made, isTemplate, _⟩ := Encoding.exists_template numbered fits inside transition
    exact ⟨made, isTemplate, Encoding.denotesSteps_instantiate numbered fits inside isTemplate⟩
  · intro configuration reachability
    obtain ⟨task, isBuilt⟩ := Task.exists_build numbered fits configuration
    obtain ⟨rfl, rfl, encoded, _⟩ := Task.build_ok isBuilt
    exact ⟨task, isBuilt, Task.denotesSteps_step numbered fits encoded reachability⟩

/-- A process that moves if x holds and forgets y, beside a process that stays where it is.  The bit
for the value of y is set although y is unknown. -/
theorem System.denotesSteps_interleaves_of_forgetting :
    let text := "\x7b\"predicates\": \x7b\"x\": 0, \"y\": 1\x7d, \"processes\": [[\x7b" ++
      "\"source\": 0, \"destination\": 1, \"guard\": \"x\", \"assignments\": [\x7b" ++
        "\"predicate\": 1, \"RHS\": \"choice(false, false)\"\x7d]\x7d], " ++
          "[\x7b\"source\": 0, \"destination\": 0\x7d]]\x7d"
    let forgetting : Transition :=
      ⟨0, 1, .plain (.predicate 0), [⟨1, .choice (.literal false) (.literal false)⟩]⟩
    let system : System :=
      ⟨.ofList [("x", 0), ("y", 1)], .empty, [⟨0, [forgetting]⟩, ⟨1, [⟨0, 0, .always, []⟩]⟩]⟩
    let configuration : Configuration := ⟨.reachability, 1, [0], .all, 5, false, false⟩
    let v : Valuation := fun a => a ∈ [Atom.location 0 0 4 false, .predicate 0 .truth 3 false,
      .predicate 0 .truth 4 false, .predicate 1 .unknown 4 false, .predicate 1 .truth 4 false]
    ModelFile.load text = .ok system ∧ system.Fits ∧
      (∃ made f, Encoding.template system 0 forgetting = .ok made ∧
        made.instantiate 3 = .ok f ∧ f.eval v = true) ∧
        ∃ task f, (Task.build system configuration).2 = .ok task ∧
          task.step 3 = .ok f ∧ f.eval v = true := by
  intro text forgetting system configuration v
  have loaded : ModelFile.load text = .ok system := by decide +kernel
  have fits : system.Fits := by
    intro process member
    rcases List.mem_cons.mp member with rfl | member
    · decide
    · obtain rfl := List.mem_singleton.mp member
      decide
  have interleaves : Encoding.Interleaves system 0 forgetting 3 v := by
    constructor
    case room => decide
    case source => decide
    case destination => decide
    case idle =>
      intro q inside other
      obtain rfl : q = 1 := by
        have : q < 2 := inside
        omega
      exact ⟨0, by decide⟩
    case guard => decide +kernel
    case updates => exact List.forall_mem_singleton.mpr (by decide)
    case frame =>
      intro id member unassigned
      have values : system.predicates.values = [0, 1] := by decide
      rcases List.mem_cons.mp (values ▸ System.mem_predicateIds.mp member) with rfl | member
      · decide
      · exact absurd (List.mem_singleton.mp member).symm (unassigned _ (List.mem_singleton_self _))
  obtain ⟨templates, steps⟩ := System.denotesSteps_interleaves loaded fits
  obtain ⟨made, isTemplate, moves⟩ := templates 0 _ rfl forgetting (List.mem_singleton_self _)
  obtain ⟨f, moved⟩ := moves.exists_formula 3 (by decide)
  obtain ⟨task, built, goes⟩ := steps configuration rfl
  obtain ⟨g, isStep⟩ := goes.exists_formula 3 (by decide)
  refine ⟨loaded, fits, ⟨made, f, isTemplate, moved, ?_⟩, task, g, built, isStep, ?_⟩
  · exact (moves.expresses 3 f moved v).mpr interleaves
  · exact (goes.expresses 3 g isStep v).mpr
      ⟨0, _, rfl, forgetting, List.mem_singleton_self _, interleaves⟩

end Trivalent
