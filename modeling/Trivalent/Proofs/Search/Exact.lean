import Trivalent.Proofs.Search.Sweep
import Trivalent.Proofs.Task.Lassos

/-!
# Searches find the shortest violations

A search with no further condition goes over the violations of the system: it ends at the length of
the shortest one, and its verdict tells whether one of that length does not depend on unknown
predicates.
-/

namespace Trivalent

namespace Task

variable {task : Task}

/-- Without conditions, a depth is possible exactly if there is a violation of that length. -/
theorem possible_iff_violates (built : task.WellBuilt) {n : Nat} (room : n < Word.limit)
    {condition : Valuation → Prop} (always : ∀ v, condition v) (wildcard : Bool) :
    task.Possible condition (task.Reaches n) n wildcard ↔
      ∃ s, task.system.Violates task.configuration wildcard n s := by
  rw [← exists_unrolls_iff_violates built room]
  unfold Possible
  simp only [always, true_and, and_assoc]

/-- The verdict of a search without conditions. -/
structure FindsShortest (task : Task) (feedback : Feedback) : Prop where
  none_iff : feedback = .noneUpTo task.configuration.bound ↔
    ∀ n ≤ task.configuration.bound, ¬∃ s, task.system.Violates task.configuration true n s
  shortest : feedback.verdict ≠ .noneFound →
    feedback.step ≤ task.configuration.bound ∧
      (∃ s, task.system.Violates task.configuration true feedback.step s) ∧
        ∀ n < feedback.step, ¬∃ s, task.system.Violates task.configuration true n s
  definite_iff : feedback.verdict ≠ .noneFound → (feedback.verdict = .definite ↔
    ∃ s, task.system.Violates task.configuration false feedback.step s)
  none : feedback.verdict = .noneFound → feedback = .noneUpTo task.configuration.bound

/-- What a search from the beginning answers is the shortest violation. -/
theorem Answers.findsShortest (built : task.WellBuilt)
    (room : task.configuration.bound < Word.limit) {condition : Valuation → Prop}
    (always : ∀ v, condition v) {feedback : Feedback}
    (answers : task.Answers condition 0 feedback) : task.FindsShortest feedback := by
  have possible : ∀ n ≤ task.configuration.bound, ∀ wildcard,
      task.Possible condition (task.Reaches n) n wildcard ↔
        ∃ s, task.system.Violates task.configuration wildcard n s := fun n within =>
    possible_iff_violates built (Nat.lt_of_le_of_lt within room) always
  cases answers with
  | exhausted none never =>
      obtain rfl := none
      constructor
      case none_iff =>
        constructor
        · intro _ n within
          rw [← possible n within]
          exact never n (Nat.zero_le n) within
        · exact fun _ => rfl
      case shortest => exact fun found => absurd rfl found
      case definite_iff => exact fun found => absurd rfl found
      case none => exact fun _ => rfl
  | found n _ within least finds =>
      have violated : ∃ s, task.system.Violates task.configuration true n s := by
        rw [← possible n within]
        exact finds.possible
      have first : ∀ m < n, ¬∃ s, task.system.Violates task.configuration true m s := by
        intro m before
        rw [← possible m (Nat.le_trans (Nat.le_of_lt before) within)]
        exact least m (Nat.zero_le m) before
      constructor
      case none_iff =>
        constructor
        · intro none
          exact absurd (congrArg Feedback.verdict none) finds.found
        · exact fun never => absurd violated (never n within)
      case shortest =>
        intro _
        rw [finds.step]
        exact ⟨within, violated, first⟩
      case definite_iff =>
        intro _
        rw [finds.step, finds.definite_iff]
        exact possible n within false
      case none => exact fun none => absurd none finds.found

end Task

namespace Search

open Trivalent.Action

/-- A search from the beginning with a correct solver ends, and finds the shortest violation. -/
theorem exists_runs_evaluate_initial {σ : Type} {solver : Sat.Solver σ} {task : Task}
    (built : task.WellBuilt) (correct : solver.Correct)
    (room : task.configuration.bound + 1 < Word.limit) (start : σ) :
    ∃ feedback search, Runs (evaluate solver task 0 (.constant true)) (initial start)
      feedback search ∧ task.FindsShortest feedback := by
  obtain ⟨feedback, search, runs⟩ := exists_runs_evaluate built correct room
    (resumes_initial start) Formula.expresses_true
  obtain ⟨answers, _⟩ := runs_evaluate built correct.sound (resumes_initial start)
    Formula.expresses_true (Nat.zero_le _) runs
  exact ⟨feedback, search, runs, answers.findsShortest built (Nat.lt_of_succ_lt room)
    fun _ => ⟨trivial, trivial⟩⟩

end Search

/-- Some run of `n` steps ends at the target. -/
def System.Meets (system : System) (configuration : Configuration) (wildcard : Bool)
    (n : Nat) : Prop :=
  ∃ s, system.IsRun wildcard n s ∧ configuration.Meets (s n)

/-- A search for a target with a correct solver ends.  It finds none up to the bound exactly if no
run of at most so many steps meets the target with unknown predicates read as either value, and else
the length of the shortest such run; the verdict is definite exactly if a run of that length meets
the target with unknown predicates read as neither. -/
theorem Search.reachability_exact {σ : Type} {solver : Sat.Solver σ} {text : String}
    {system : System} {configuration : Configuration}
    (loaded : ModelFile.load text = .ok system) (fits : system.Fits)
    (validated : (configuration.validate system).2 = .ok ())
    (reachability : configuration.property = .reachability)
    (room : configuration.bound + 1 < Word.limit) (correct : solver.Correct) (start : σ) :
    ∃ task feedback search, (Task.build system configuration).2 = .ok task ∧
      Action.Runs (Search.evaluate solver task 0 (.constant true)) (.initial start)
        feedback search ∧
      (feedback = .noneUpTo configuration.bound ↔
        ∀ n ≤ configuration.bound, ¬system.Meets configuration true n) ∧
      (feedback ≠ .noneUpTo configuration.bound →
        feedback.step ≤ configuration.bound ∧ system.Meets configuration true feedback.step ∧
          (∀ n < feedback.step, ¬system.Meets configuration true n) ∧
            (feedback.verdict = .definite ↔ system.Meets configuration false feedback.step) ∧
              (feedback.verdict = .possible ↔
                ¬system.Meets configuration false feedback.step)) := by
  have numbered := ModelFile.numbered_of_load loaded
  have valid := Configuration.valid_of_validate validated
  obtain ⟨task, isBuilt⟩ := Task.exists_build numbered fits configuration
  have built := Task.wellBuilt_of_build numbered valid isBuilt
  obtain ⟨rfl, rfl, _⟩ := Task.build_ok isBuilt
  obtain ⟨feedback, search, runs, finds⟩ :=
    Search.exists_runs_evaluate_initial built correct room start
  have meets : ∀ n wildcard, task.system.Meets task.configuration wildcard n ↔
      ∃ s, task.system.Violates task.configuration wildcard n s := by
    intro n wildcard
    simp only [System.Meets, System.violates_reachability_iff reachability]
  simp only [meets]
  refine ⟨task, feedback, search, isBuilt, runs, finds.none_iff, fun someFound => ?_⟩
  have found : feedback.verdict ≠ .noneFound := fun none => someFound (finds.none none)
  obtain ⟨within, violated, least⟩ := finds.shortest found
  have definite := finds.definite_iff found
  refine ⟨within, violated, least, definite, ?_⟩
  rw [← definite]
  cases verdict : feedback.verdict with
  | definite => simp
  | possible => simp
  | noneFound => exact absurd verdict found

/-- A process that reaches its target if an unknown condition holds. -/
theorem Search.reachability_exact_of_unknown_guard :
    let text := "\x7b\"predicates\": \x7b\x7d, \"processes\": " ++
      "[[\x7b\"source\": 0, \"destination\": 1, \"guard\": \"choice(false, false)\"\x7d]]\x7d"
    let system : System :=
      ⟨.empty, .empty, [⟨0, [⟨0, 1, .choice (.literal false) (.literal false), []⟩]⟩]⟩
    let configuration : Configuration := ⟨.reachability, 1, [0], .all, 3, false, false⟩
    ModelFile.load text = .ok system ∧ system.Fits ∧
      (configuration.validate system).2 = .ok () ∧ Sat.splitting.Correct ∧
        ∃ task feedback search, (Task.build system configuration).2 = .ok task ∧
          Action.Runs (Search.evaluate Sat.splitting task 0 (.constant true)) (.initial [])
            feedback search ∧
          (feedback = .noneUpTo 3 ↔ ∀ n ≤ 3, ¬system.Meets configuration true n) ∧
          (feedback ≠ .noneUpTo 3 →
            feedback.step ≤ 3 ∧ system.Meets configuration true feedback.step ∧
              (∀ n < feedback.step, ¬system.Meets configuration true n) ∧
                (feedback.verdict = .definite ↔
                  system.Meets configuration false feedback.step) ∧
                  (feedback.verdict = .possible ↔
                    ¬system.Meets configuration false feedback.step)) := by
  intro text system configuration
  have loaded : ModelFile.load text = .ok system := by decide +kernel
  have fits : system.Fits := by
    intro process member
    obtain rfl := List.mem_singleton.mp member
    decide
  have validated : (configuration.validate system).2 = .ok () := by decide +kernel
  exact ⟨loaded, fits, validated, Sat.splitting_correct, Search.reachability_exact loaded fits
    validated rfl (by decide : configuration.bound + 1 < Word.limit) Sat.splitting_correct []⟩

end Trivalent
