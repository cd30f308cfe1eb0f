import Trivalent.Proofs.System.Equality
import Trivalent.Proofs.Task.Violations

/-!
# Loops are lassos

The formulas of a task up to a depth are satisfiable together with the property exactly if the
system violates the property in that many steps.  For loops these violations are the lassos.
-/

namespace Trivalent

namespace Task

variable {task : Task} {n : Nat}

/-- The formulas up to a depth are there, and say together that the steps are unrolled and that the
property is reached. -/
theorem exists_formulas (built : task.WellBuilt) (room : n < Word.limit) :
    ∃ initial steps property, task.initial = .ok initial ∧
      (List.range n).mapM task.step = .ok steps ∧ task.property n = .ok property ∧
        ∀ v, (initial.eval v = true ∧ (∀ f ∈ steps, f.eval v = true) ∧ property.eval v = true) ↔
          task.Unrolls n v ∧ task.Reaches n v := by
  obtain ⟨initial, isInitial, _⟩ := denotes_initial built
  have each : ∀ t ∈ List.range n, Denotes (task.step t) fun v => Holds v (task.step t) := by
    intro t inside
    have here := Nat.lt_of_le_of_lt (List.mem_range.mp inside) room
    obtain ⟨f, isStep, _⟩ := denotes_step built here
    exact denotes_holds isStep
  obtain ⟨steps, areSteps, all⟩ := denotesAll_mapM each
  obtain ⟨property, isProperty, reaches⟩ := denotes_property built n
  refine ⟨initial, steps, property, isInitial, areSteps, isProperty, fun v => ?_⟩
  have starts : initial.eval v = true ↔ Holds v task.initial := by rw [isInitial, holds_ok]
  rw [starts, all v, reaches v]
  constructor
  · rintro ⟨begins, goes, ends⟩
    exact ⟨⟨begins, fun t before => goes t (List.mem_range.mpr before)⟩, ends⟩
  · rintro ⟨unrolls, ends⟩
    exact ⟨unrolls.initial, fun t before => unrolls.steps t (List.mem_range.mp before), ends⟩

/-- Some valuation unrolls a violation exactly if there is one. -/
theorem exists_unrolls_iff_violates (built : task.WellBuilt) (room : n < Word.limit)
    (wildcard : Bool) :
    (∃ v, (task.Unrolls n v ∧ task.Reaches n v) ∧ v .wildcard = wildcard) ↔
      ∃ s, task.system.Violates task.configuration wildcard n s := by
  constructor
  · rintro ⟨v, ⟨unrolls, reaches⟩, rfl⟩
    exact ⟨_, violates_of_unrolls built room unrolls reaches⟩
  · rintro ⟨s, violates⟩
    obtain ⟨v, unrolls, reaches, reads, _⟩ := exists_unrolls_of_violates built room violates
    exact ⟨v, ⟨unrolls, reaches⟩, reads⟩

end Task

/-- The formulas for a loop at a depth are satisfiable, with unknown predicates read in a fixed way,
exactly if the system has a lasso of that many steps. -/
theorem System.loop_satisfiable_iff_isLasso {text : String} {system : System}
    {configuration : Configuration} (loaded : ModelFile.load text = .ok system)
    (fits : system.Fits) (validated : (configuration.validate system).2 = .ok ())
    (liveness : configuration.property = .liveness) {depth : Nat} (room : depth < Word.limit)
    (wildcard : Bool) :
    ∃ task initial steps property, (Task.build system configuration).2 = .ok task ∧
      task.initial = .ok initial ∧ (List.range depth).mapM task.step = .ok steps ∧
        task.property depth = .ok property ∧
          ((∃ v : Valuation, (initial.eval v = true ∧ (∀ f ∈ steps, f.eval v = true) ∧
              property.eval v = true) ∧ v .wildcard = wildcard) ↔
            ∃ r s mover, system.IsLasso configuration wildcard depth r s mover) := by
  have numbered := ModelFile.numbered_of_load loaded
  have valid := Configuration.valid_of_validate validated
  obtain ⟨task, isBuilt⟩ := Task.exists_build numbered fits configuration
  have built := Task.wellBuilt_of_build numbered valid isBuilt
  obtain ⟨rfl, rfl, _⟩ := Task.build_ok isBuilt
  obtain ⟨initial, steps, property, isInitial, areSteps, isProperty, meaning⟩ :=
    Task.exists_formulas built room
  refine ⟨task, initial, steps, property, isBuilt, isInitial, areSteps, isProperty, ?_⟩
  simp only [meaning, Task.exists_unrolls_iff_violates built room,
    System.violates_liveness_iff liveness]
  exact exists_comm

/-- One process that stays where it is, and waits forever for another location. -/
theorem System.loop_satisfiable_iff_isLasso_of_waiting :
    let text := "\x7b\"predicates\": \x7b\x7d, \"processes\": " ++
      "[[\x7b\"source\": 0, \"destination\": 0\x7d]]\x7d"
    let system : System := ⟨.empty, .empty, [⟨0, [⟨0, 0, .always, []⟩]⟩]⟩
    let configuration : Configuration := ⟨.liveness, 1, [0], .all, 1, true, false⟩
    ModelFile.load text = .ok system ∧ system.Fits ∧
      (configuration.validate system).2 = .ok () ∧
        ∃ task initial steps property, (Task.build system configuration).2 = .ok task ∧
          task.initial = .ok initial ∧ (List.range 1).mapM task.step = .ok steps ∧
            task.property 1 = .ok property ∧
              ((∃ v : Valuation, (initial.eval v = true ∧ (∀ f ∈ steps, f.eval v = true) ∧
                  property.eval v = true) ∧ v .wildcard = true) ↔
                ∃ r s mover, system.IsLasso configuration true 1 r s mover) := by
  intro text system configuration
  have loaded : ModelFile.load text = .ok system := by decide +kernel
  have fits : system.Fits := by
    intro process member
    obtain rfl := List.mem_singleton.mp member
    decide
  have validated : (configuration.validate system).2 = .ok () := by decide +kernel
  exact ⟨loaded, fits, validated, System.loop_satisfiable_iff_isLasso loaded fits validated rfl
    (by decide : 1 < Word.limit) true⟩

end Trivalent
