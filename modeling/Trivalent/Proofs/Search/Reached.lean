import Trivalent.Proofs.Search.Single
import Trivalent.Proofs.Task.Optimistic

/-!
# Searches that were used

A search may be used again after every answer.  Whatever it was used for, its formulas are those of the
run and the conditions that it was asked to search under.
-/

namespace Trivalent

namespace Task

variable {task : Task} {conditions constraints : List Formula} {n : Nat} {wildcard : Bool}

theorem satisfies_append_iff (built : task.WellBuilt) {v : Valuation} :
    task.Satisfies (conditions ++ constraints) n v ↔
      task.Unrolls n v ∧ (∀ f ∈ conditions, f.eval v = true) ∧
        (∀ f ∈ constraints, f.eval v = true) ∧ task.Reaches n v := by
  have reaches := (denotes_property built n).holds_iff v
  constructor
  · rintro ⟨unrolls, property, all⟩
    obtain ⟨early, late⟩ := List.forall_mem_append.mp all
    exact ⟨unrolls, early, late, reaches.mp property⟩
  · rintro ⟨unrolls, early, late, isReached⟩
    exact ⟨unrolls, reaches.mpr isReached, List.forall_mem_append.mpr ⟨early, late⟩⟩

theorem satisfies_append_singleton_iff (built : task.WellBuilt) {condition : Formula}
    {v : Valuation} :
    task.Satisfies (conditions ++ [condition]) n v ↔
      task.Unrolls n v ∧ ((∀ f ∈ conditions, f.eval v = true) ∧ condition.eval v = true) ∧
        task.Reaches n v := by
  rw [satisfies_append_iff built, List.forall_mem_singleton, and_assoc]

/-- What a search can find under conditions is what satisfies them. -/
theorem possible_iff_satisfiable (built : task.WellBuilt) {condition : Formula} :
    task.Possible (fun v => (∀ f ∈ conditions, f.eval v = true) ∧ condition.eval v = true)
        (task.Reaches n) n wildcard ↔
      task.Satisfiable (conditions ++ [condition]) n wildcard := by
  unfold Possible Satisfiable
  simp only [satisfies_append_singleton_iff built, and_assoc]

/-- What a search at one depth can find under conditions and constraints is what satisfies them. -/
theorem possibleAt_iff_satisfiable (built : task.WellBuilt) :
    task.Possible (fun v => ∀ f ∈ conditions, f.eval v = true)
        (fun v => (∀ f ∈ constraints, f.eval v = true) ∧ task.Reaches n v) n wildcard ↔
      task.Satisfiable (conditions ++ constraints) n wildcard := by
  unfold Possible Satisfiable
  simp only [satisfies_append_iff built, and_assoc]

end Task

namespace Search

open Trivalent.Action

variable {σ : Type} {solver : Sat.Solver σ} {task : Task} {start : σ} {conditions : List Formula}
  {search search' : Search σ} {condition : Formula} {feedback : Feedback} {first : Nat}

/-- A search that was begun and then used some times, with the conditions that it has taken up. -/
inductive Reached (solver : Sat.Solver σ) (task : Task) (start : σ) :
    List Formula → Search σ → Prop where
  | fresh : Reached solver task start [] (.initial start)
  | evaluated {conditions : List Formula} {search search' : Search σ} {first : Nat}
      {condition : Formula} {feedback : Feedback}
      (reached : Reached solver task start conditions search)
      (runs : Runs (evaluate solver task first condition) search feedback search') :
      Reached solver task start (conditions ++ [condition]) search'
  | evaluatedAt {conditions constraints : List Formula} {search search' : Search σ}
      {depth first : Nat} {feedback : Feedback}
      (reached : Reached solver task start conditions search) (room : depth < Word.limit)
      (runs : Runs (evaluateAt solver task constraints depth first) search feedback search') :
      Reached solver task start conditions search'

/-- A search that is behind its bound finds nothing, and may be continued. -/
theorem runs_evaluate_behind (resumes : search.Resumes task fun v => ∀ f ∈ conditions, f.eval v = true)
    (behind : task.configuration.bound + 1 ≤ search.step)
    (runs : Runs (evaluate solver task first condition) search feedback search') :
    feedback = .noneUpTo task.configuration.bound ∧
      search'.Resumes task fun v => (∀ f ∈ conditions, f.eval v = true) ∧ condition.eval v = true := by
  obtain ⟨rfl, second, begun, runs⟩ := begun_of_runs runs
  obtain ⟨knows, _⟩ := runs_begin (resumes.push fun _ => Iff.rfl) begun
  rw [Nat.sub_eq_zero_of_le behind] at runs
  rcases runs_bind_iff.mp runs with ⟨_, fourth, logged, runs⟩
  obtain rfl := runs_log_iff.mp logged
  rcases runs_pure_iff.mp runs with ⟨isNone, rfl⟩
  exact ⟨isNone.symm, knows.resumes⟩

theorem resumes_fresh (start : σ) :
    (initial start).Resumes task fun v => ∀ f ∈ ([] : List Formula), f.eval v = true := by
  have resumes : (initial start).Resumes task fun _ => True := resumes_initial start
  refine ⟨resumes.room, fun v starts => (resumes.run_iff v starts).trans ?_⟩
  simp

theorem Resumes.append {f : Formula}
    (resumes : search.Resumes task fun v => (∀ g ∈ conditions, g.eval v = true) ∧ f.eval v = true) :
    search.Resumes task fun v => ∀ g ∈ conditions ++ [f], g.eval v = true := by
  refine ⟨resumes.room, fun v starts => (resumes.run_iff v starts).trans ?_⟩
  rw [List.forall_mem_append, List.forall_mem_singleton]

/-- Whatever a search was used for, it may be continued. -/
theorem Reached.resumes (built : task.WellBuilt) (sound : solver.Sound)
    (reached : Reached solver task start conditions search) :
    search.Resumes task fun v => ∀ f ∈ conditions, f.eval v = true := by
  induction reached with
  | fresh => exact resumes_fresh start
  | @evaluated _ search _ first condition _ _ runs ih =>
      apply Resumes.append
      rcases Nat.le_total (task.configuration.bound + 1) search.step with behind | within
      · exact (runs_evaluate_behind ih behind runs).2
      · obtain rfl := first_eq_of_runs runs
        obtain ⟨_, knows, _⟩ := runs_evaluate built sound ih (fun _ => Iff.rfl) within runs
        exact knows.resumes
  | evaluatedAt _ room runs ih =>
      obtain ⟨_, knows, _⟩ := runs_evaluateAt built sound ih (fun _ => Iff.rfl) room runs
      exact knows.resumes

end Search

end Trivalent
