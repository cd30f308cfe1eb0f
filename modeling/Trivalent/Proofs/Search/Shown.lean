import Trivalent.Proofs.Search.Exact
import Trivalent.Proofs.Witness.Shown

/-!
# Searches show violations

Whatever a search answers, the witness that it gives is read back from a valuation that unrolls the
run.  So it shows a violation with unknown predicates read as either value.
-/

namespace Trivalent

/-- The witness of what is found shows a violation. -/
theorem Task.Finds.showsViolation {task : Task} {condition property : Valuation → Prop} {n : Nat}
    {feedback : Feedback} (finds : task.Finds condition property n feedback)
    (built : task.WellBuilt) (room : n < Word.limit) (reached : ∀ v, property v → task.Reaches n v) :
    Witness.ShowsViolation task.system task.configuration true n feedback.witness := by
  obtain ⟨v, unrolls, _, has, reads, decoded⟩ := finds.witness
  rw [← reads]
  exact Witness.showsViolation_of_unrolls built room unrolls (reached v has) decoded

/-- A search from the beginning, under any condition, shows a violation whenever it answers that there
is one. -/
theorem Search.showsViolation_of_found {σ : Type} {solver : Sat.Solver σ} {text : String}
    {system : System} {configuration : Configuration}
    (loaded : ModelFile.load text = .ok system)
    (validated : (configuration.validate system).2 = .ok ()) {task : Task}
    (isBuilt : (Task.build system configuration).2 = .ok task) (sound : solver.Sound) {start : σ}
    {first : Nat} {condition : Formula} {feedback : Feedback} {search : Search σ}
    (runs : Action.Runs (Search.evaluate solver task first condition) (.initial start) feedback
      search)
    (found : feedback.verdict ≠ .noneFound) :
    Witness.ShowsViolation system configuration true feedback.step feedback.witness := by
  have built := Task.wellBuilt_of_loaded loaded validated isBuilt
  obtain ⟨rfl, rfl, _⟩ := Task.build_ok isBuilt
  obtain rfl := first_eq_of_runs runs
  obtain ⟨answers, knows, reached⟩ := Search.runs_evaluate built sound
    (Search.resumes_initial start) (fun _ => Iff.rfl) (Nat.zero_le _) runs
  cases answers with
  | exhausted none _ => exact absurd (none ▸ rfl) found
  | found n _ _ _ finds =>
      have room := knows.room
      rw [reached, Feedback.depth_of_found found, finds.step] at room
      rw [finds.step]
      exact finds.showsViolation built room fun _ => id

/-- A process that waits forever for another location, in a loop that has to be fair. -/
theorem Search.showsViolation_of_found_of_waiting :
    let text := "\x7b\"predicates\": \x7b\x7d, \"processes\": " ++
      "[[\x7b\"source\": 0, \"destination\": 0\x7d]]\x7d"
    let system : System := ⟨.empty, .empty, [⟨0, [⟨0, 0, .always, []⟩]⟩]⟩
    let configuration : Configuration := ⟨.liveness, 1, [0], .all, 2, true, false⟩
    ModelFile.load text = .ok system ∧ (configuration.validate system).2 = .ok () ∧
      Sat.splitting.Sound ∧
        ∃ task feedback search, (Task.build system configuration).2 = .ok task ∧
          Action.Runs (Search.evaluate Sat.splitting task 0 (.constant true)) (.initial []) feedback
            search ∧
          feedback.verdict ≠ .noneFound ∧
            Witness.ShowsViolation system configuration true feedback.step feedback.witness := by
  intro text system configuration
  have loaded : ModelFile.load text = .ok system := by decide +kernel
  have validated : (configuration.validate system).2 = .ok () := by decide +kernel
  have fits : system.Fits := by
    intro process member
    obtain rfl := List.mem_singleton.mp member
    decide
  obtain ⟨task, isBuilt, built⟩ := Task.exists_wellBuilt loaded validated fits
  have correct := Sat.splitting_correct
  obtain ⟨isSystem, isConfiguration, _⟩ := Task.build_ok isBuilt
  let s : State := ⟨fun _ => 0, fun _ => .yes⟩
  have violates : system.Violates configuration true 1 fun _ => s := by
    refine (System.violates_liveness_iff rfl).mpr ⟨0, fun _ => 0, ?_⟩
    constructor
    case initial => exact ⟨fun _ _ => rfl, fun _ member => absurd member List.not_mem_nil⟩
    case moves =>
      exact fun _ _ => System.moves_self rfl (List.mem_singleton_self _) rfl rfl rfl rfl
    case start => exact Nat.one_pos
    case closes => exact ⟨fun _ _ => rfl, fun _ _ => rfl⟩
    case avoids => exact fun _ _ _ meets => absurd (meets 0 (List.mem_singleton_self _)) nofun
    case fair => exact fun _ p inside => ⟨0, Nat.le_refl 0, Nat.one_pos, (Nat.lt_one_iff.mp inside).symm⟩
  obtain ⟨feedback, search, runs, finds⟩ := Search.exists_runs_evaluate_initial built correct
    (by rw [isConfiguration]; decide) []
  have found : feedback.verdict ≠ .noneFound := by
    intro none
    have never := finds.none_iff.mp (finds.none none)
    rw [isConfiguration, isSystem] at never
    exact never 1 (by decide) ⟨_, violates⟩
  exact ⟨loaded, validated, correct.sound, task, feedback, search, isBuilt, runs, found,
    Search.showsViolation_of_found loaded validated isBuilt correct.sound runs found⟩

end Trivalent
