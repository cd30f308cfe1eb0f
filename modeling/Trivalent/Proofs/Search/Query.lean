import Trivalent.Proofs.Search.Kept
import Trivalent.Proofs.Task.Violations
import Trivalent.Proofs.Witness.Path

/-!
# Queries of a search

The formulas of a search say that the run so far is unrolled and that the conditions of the search
hold.  So a query is answered with a valuation that does both and has the property, and a depth is
classified by whether there is one under either reading of unknown predicates.
-/

namespace Trivalent

namespace Verdict

variable {verdict : Verdict}

theorem eq_definite (certain : verdict ≠ .possible) (found : verdict ≠ .noneFound) :
    verdict = .definite := by
  cases verdict with
  | definite => rfl
  | possible => exact absurd rfl certain
  | noneFound => exact absurd rfl found

theorem eq_possible (indefinite : verdict ≠ .definite) (found : verdict ≠ .noneFound) :
    verdict = .possible := by
  cases verdict with
  | definite => exact absurd rfl indefinite
  | possible => rfl
  | noneFound => exact absurd rfl found

end Verdict

/-- The value of the wildcard in a query. -/
def Phase.wildcard : Phase → Bool
  | .optimistic => true
  | .definite => false

namespace Task

/-- Some valuation unrolls `n` steps under a condition and has a property. -/
def Possible (task : Task) (condition property : Valuation → Prop) (n : Nat) (wildcard : Bool) :
    Prop :=
  ∃ v, task.Unrolls n v ∧ condition v ∧ property v ∧ v .wildcard = wildcard

/-- Feedback on a depth at which there is a violation: it shows one, and tells whether there is one
that does not depend on unknown predicates. -/
structure Finds (task : Task) (condition property : Valuation → Prop) (n : Nat)
    (feedback : Feedback) : Prop where
  step : feedback.step = n
  found : feedback.verdict ≠ .noneFound
  definite_iff : feedback.verdict = .definite ↔ task.Possible condition property n false
  witness : ∃ v, task.Unrolls n v ∧ condition v ∧ property v ∧ v .wildcard = true ∧
    Witness.decode task.system task.configuration.fairness v n = .ok feedback.witness

theorem Finds.possible {task : Task} {condition property : Valuation → Prop} {n : Nat}
    {feedback : Feedback} (finds : task.Finds condition property n feedback) :
    task.Possible condition property n true := by
  obtain ⟨v, unrolls, holds, has, reads, _⟩ := finds.witness
  exact ⟨v, unrolls, holds, has, reads⟩

/-- The answer to whether there is a violation at a depth. -/
def Classifies (task : Task) (condition property : Valuation → Prop) (n : Nat) :
    Option Feedback → Prop
  | none => ¬task.Possible condition property n true
  | some feedback => task.Finds condition property n feedback

end Task

namespace Search

open Trivalent.Action

variable {σ : Type}

/-- The formulas of a search say that its steps are unrolled and that a condition holds. -/
structure Knows (task : Task) (condition : Valuation → Prop) (search : Search σ) : Prop where
  room : search.step < Word.limit
  run_iff : ∀ v, (∀ f ∈ search.run, f.eval v = true) ↔ task.Unrolls search.step v ∧ condition v

/-- Two searches have come equally far. -/
structure SameRun (search search' : Search σ) : Prop where
  run : search'.run = search.run
  step : search'.step = search.step

theorem SameRun.trans {first second third : Search σ} (early : first.SameRun second)
    (late : second.SameRun third) : first.SameRun third :=
  ⟨late.run.trans early.run, late.step.trans early.step⟩

theorem SameRun.knows {task : Task} {condition : Valuation → Prop} {search search' : Search σ}
    (same : search.SameRun search') (knows : search.Knows task condition) :
    search'.Knows task condition := by
  rcases same with ⟨run, step⟩
  constructor
  · rw [step]
    exact knows.room
  · rw [run, step]
    exact knows.run_iff

theorem reading_expresses (phase : Phase) :
    (reading phase).Expresses fun v => v .wildcard = phase.wildcard := by
  intro v
  cases phase <;> simp [reading, Phase.wildcard]

variable {solver : Sat.Solver σ} {task : Task} {search search' : Search σ}
  {condition property : Valuation → Prop} {f : Formula} {depth : Nat} {phase : Phase}

/-! ## Single queries -/

/-- A query leaves the run alone and is answered rightly. -/
theorem runs_query (sound : solver.Sound) (knows : search.Knows task condition)
    (meaning : f.Expresses property) {answer : Option Valuation}
    (runs : Runs (query solver f depth phase) search answer search') :
    search.SameRun search' ∧
      match answer with
      | some v => task.Unrolls search.step v ∧ condition v ∧ property v ∧
          v .wildcard = phase.wildcard
      | none => ¬task.Possible condition property search.step phase.wildcard := by
  have right := sound search.solver (search.run ++ [f, reading phase])
  have all : ∀ v, (∀ g ∈ search.run ++ [f, reading phase], g.eval v = true) ↔
      (task.Unrolls search.step v ∧ condition v) ∧ property v ∧
        v .wildcard = phase.wildcard := by
    intro v
    rw [List.forall_mem_append, knows.run_iff v, List.forall_mem_cons, List.forall_mem_singleton,
      meaning v, reading_expresses phase v]
  rcases runs with ⟨result, state⟩
  rw [query_eq] at result state
  split at result
  · rename_i v _ solved
    rw [solved] at state right
    obtain rfl := Except.ok.inj result
    obtain rfl := state
    rcases (all v).mp right with ⟨⟨unrolls, holds⟩, has, reads⟩
    exact ⟨⟨rfl, rfl⟩, unrolls, holds, has, reads⟩
  · rename_i _ solved
    rw [solved] at state right
    obtain rfl := Except.ok.inj result
    obtain rfl := state
    constructor
    · exact ⟨rfl, rfl⟩
    · rintro ⟨v, unrolls, holds, has, reads⟩
      exact right ⟨v, (all v).mpr ⟨⟨unrolls, holds⟩, has, reads⟩⟩
  · contradiction

/-- Queries leave the run alone, even if they are not answered. -/
theorem keptByQueries_sameRun (search : Search σ) :
    KeptByQueries solver (search.SameRun ·) fun _ => True where
  asked _ _ same := ⟨same.run, same.step⟩
  unanswered _ _ _ _ := trivial
  range _ _ := trivial

/-- A query has no error but that it is not answered. -/
theorem fails_query {error : CheckError}
    (fails : Fails (query solver f depth phase) search error search') : error = .solverFailed := by
  rcases fails with ⟨result, _⟩
  rw [query_eq] at result
  split at result
  · contradiction
  · contradiction
  · exact (Except.error.inj result).symm

/-! ## Classification -/

/-- A depth is classified rightly. -/
theorem runs_classify (sound : solver.Sound) (knows : search.Knows task condition)
    (meaning : f.Expresses property) (here : search.step = depth) {answer : Option Feedback}
    (runs : Runs (classify solver task f depth) search answer search') :
    search.SameRun search' ∧ task.Classifies condition property depth answer := by
  rcases runs_bind_iff.mp runs with ⟨optimistic, second, asked, runs⟩
  obtain ⟨same, isPossible⟩ := runs_query sound knows meaning asked
  subst here
  cases optimistic with
  | none =>
      rcases runs_pure_iff.mp runs with ⟨rfl, rfl⟩
      exact ⟨same, isPossible⟩
  | some v =>
      rcases runs_bind_iff.mp runs with ⟨witness, third, decoded, runs⟩
      rcases runs_ofFault_iff.mp decoded with ⟨isDecoded, rfl⟩
      rcases runs_bind_iff.mp runs with ⟨definite, fourth, asked, runs⟩
      obtain ⟨sameToo, isDefinite⟩ := runs_query sound (same.knows knows) meaning asked
      rcases runs_bind_iff.mp runs with ⟨_, fifth, logged, runs⟩
      obtain rfl := runs_log_iff.mp logged
      rcases runs_pure_iff.mp runs with ⟨rfl, rfl⟩
      rcases isPossible with ⟨unrolls, holds, has, reads⟩
      refine ⟨same.trans sameToo, rfl, ?_, ?_, v, unrolls, holds, has, reads, isDecoded⟩
      · cases definite <;> simp
      · rw [same.step] at isDefinite
        cases definite with
        | none => simpa [Phase.wildcard] using isDefinite
        | some v' =>
            have possible : task.Possible condition property search.step false := ⟨v', isDefinite⟩
            simpa using possible

/-- A depth is classified unless a query is not answered, which leaves the run alone as well. -/
theorem fails_classify (fits : task.system.Fits) {error : CheckError}
    (fails : Fails (classify solver task f depth) search error search') :
    error = .solverFailed ∧ search.SameRun search' := by
  have same := ((keptByQueries_sameRun search).keeps_classify f depth search ⟨rfl, rfl⟩).of_fails fails
  refine ⟨?_, same.1⟩
  rcases fails_bind_iff.mp fails with failed | ⟨optimistic, second, _, fails⟩
  · exact fails_query failed
  cases optimistic with
  | none => exact absurd fails not_fails_pure
  | some v =>
      have decoded := Witness.decode_of_fits fits task.configuration.fairness v depth
      rcases fails_bind_iff.mp fails with failed | ⟨witness, third, _, fails⟩
      · exact absurd failed (runs_ofFault_iff.mpr ⟨decoded, rfl⟩).not_fails
      rcases fails_bind_iff.mp fails with failed | ⟨definite, fourth, _, fails⟩
      · exact fails_query failed
      rcases fails_bind_iff.mp fails with failed | ⟨_, fifth, _, fails⟩
      · exact absurd failed not_fails_log
      · exact absurd fails not_fails_pure

end Search

end Trivalent
