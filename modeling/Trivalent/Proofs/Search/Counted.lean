import Trivalent.Proofs.Search.Sweep

/-!
# Where searches come to

A search counts the steps of its run, whatever its solver answers and whatever its formulas say.  One
that finds a violation has come to the depth of it, between its start and the bound, and one of a
single depth has come there.  Both do as they are asked when they start where they have come to: an
error is never that they were asked for something else.
-/

namespace Trivalent

/-- A search was asked to start where it had not come to, or to go back. -/
def CheckError.IsMisuse : CheckError → Prop
  | .fault (.startMismatch _ _) => True
  | .fault .cannotShrink => True
  | _ => False

theorem Fault.IsRange.not_isMisuse {fault : Fault} (isRange : fault.IsRange) :
    ¬(CheckError.fault fault).IsMisuse := by
  cases fault with
  | startMismatch => exact isRange.elim
  | cannotShrink => exact isRange.elim
  | _ => exact id

namespace Search

open Trivalent.Action

variable {σ : Type} {solver : Sat.Solver σ} {task : Task} {search search' : Search σ}
  {feedback : Feedback} {condition : Formula} {constraints : List Formula} {depth start : Nat}

/-! ## Steps -/

theorem step_of_runs_begin {result : Unit} (runs : Runs (begin task start) search result search') :
    search'.step = search.step := by
  unfold begin at runs
  rw [runs_ite_iff] at runs
  split at runs
  · obtain ⟨f, between, found, runs⟩ := runs_bind_iff.mp runs
    obtain ⟨_, rfl⟩ := runs_ofFault_iff.mp found
    obtain rfl := runs_push_iff.mp runs
    rfl
  · obtain ⟨_, rfl⟩ := runs_pure_iff.mp runs
    rfl

theorem step_of_runs_extend {steps : Nat} {result : Unit}
    (runs : Runs (extend task steps) search result search') : search'.step = search.step + steps := by
  induction steps generalizing search with
  | zero =>
      obtain ⟨_, rfl⟩ := runs_pure_iff.mp runs
      rfl
  | succ steps ih =>
      obtain ⟨_, _, isReached, runs⟩ := runs_bind_iff.mp runs
      obtain ⟨rfl, rfl⟩ := runs_reached_iff.mp isReached
      obtain ⟨f, _, found, runs⟩ := runs_bind_iff.mp runs
      obtain ⟨_, rfl⟩ := runs_ofFault_iff.mp found
      obtain ⟨_, _, pushed, runs⟩ := runs_bind_iff.mp runs
      obtain rfl := runs_push_iff.mp pushed
      obtain ⟨_, _, counted, runs⟩ := runs_bind_iff.mp runs
      obtain rfl := runs_modify_iff.mp counted
      rw [ih runs]
      exact Nat.add_right_comm _ 1 steps

theorem step_of_runs_extendTo (ahead : search.step ≤ depth) {result : Unit}
    (runs : Runs (extendTo task depth) search result search') : search'.step = depth := by
  obtain ⟨_, _, isReached, runs⟩ := runs_bind_iff.mp runs
  obtain ⟨rfl, rfl⟩ := runs_reached_iff.mp isReached
  rw [step_of_runs_extend runs]
  exact Nat.add_sub_cancel' ahead

/-- A depth is classified where the search has come to, and what is found there is a violation. -/
theorem found_of_runs_classify {f : Formula} {answer : Option Feedback}
    (runs : Runs (classify solver task f depth) search answer search') :
    search'.step = search.step ∧
      ∀ feedback, answer = some feedback → feedback.step = depth ∧ feedback.verdict ≠ .noneFound := by
  have same := ((keptByQueries_sameRun search).keeps_classify f depth search ⟨rfl, rfl⟩).of_runs runs
  refine ⟨same.step, ?_⟩
  rintro feedback rfl
  obtain ⟨optimistic, second, _, runs⟩ := runs_bind_iff.mp runs
  cases optimistic with
  | none => exact nomatch (runs_pure_iff.mp runs).1
  | some v =>
      obtain ⟨witness, third, _, runs⟩ := runs_bind_iff.mp runs
      obtain ⟨definite, fourth, _, runs⟩ := runs_bind_iff.mp runs
      obtain ⟨_, fifth, _, runs⟩ := runs_bind_iff.mp runs
      obtain ⟨isFeedback, _⟩ := runs_pure_iff.mp runs
      obtain rfl := Option.some.inj isFeedback
      refine ⟨rfl, ?_⟩
      cases definite <;> exact nofun

/-! ## Calls -/

theorem found_of_runs_sweep {count : Nat} (here : search.step = depth)
    (runs : Runs (sweep solver task count depth) search feedback search')
    (found : feedback.verdict ≠ .noneFound) :
    depth ≤ feedback.step ∧ feedback.step < depth + count ∧ search'.step = feedback.step := by
  induction count generalizing search depth with
  | zero =>
      obtain ⟨_, _, _, runs⟩ := runs_bind_iff.mp runs
      obtain ⟨rfl, _⟩ := runs_pure_iff.mp runs
      exact absurd rfl found
  | succ count ih =>
      obtain ⟨f, second, isProperty, runs⟩ := runs_bind_iff.mp runs
      obtain ⟨_, rfl⟩ := runs_ofFault_iff.mp isProperty
      obtain ⟨answer, second, classified, runs⟩ := runs_bind_iff.mp runs
      obtain ⟨step, isFound⟩ := found_of_runs_classify classified
      cases answer with
      | some answer =>
          obtain ⟨rfl, rfl⟩ := runs_pure_iff.mp runs
          obtain ⟨isDepth, _⟩ := isFound answer rfl
          exact ⟨Nat.le_of_eq isDepth.symm, by omega, by omega⟩
      | none =>
          obtain ⟨later, third, added, runs⟩ := runs_bind_iff.mp runs
          obtain ⟨isLater, rfl⟩ := runs_ofFault_iff.mp added
          obtain ⟨rfl, _⟩ := Word.add_eq_ok_iff.mp isLater
          obtain ⟨_, fourth, extended, runs⟩ := runs_bind_iff.mp runs
          obtain ⟨after, within, isStep⟩ := ih (step_of_runs_extendTo (by omega) extended) runs
          exact ⟨by omega, by omega, isStep⟩

/-- A search of all depths that finds a violation has come to the depth of it, which is not before its
start and not behind the bound. -/
theorem found_of_runs_evaluate
    (runs : Runs (evaluate solver task start condition) search feedback search')
    (found : feedback.verdict ≠ .noneFound) :
    start ≤ feedback.step ∧ feedback.step ≤ task.configuration.bound ∧
      search'.step = feedback.step := by
  obtain ⟨rfl, second, begun, runs⟩ := begun_of_runs runs
  have step : second.step = search.step := by rw [step_of_runs_begin begun]
  obtain ⟨after, within, isStep⟩ := found_of_runs_sweep step runs found
  exact ⟨after, by omega, isStep⟩

/-- A search of one depth that has an answer has come there, and the violation is a definite one if
there is one. -/
theorem answered_of_runs_evaluateAt
    (runs : Runs (evaluateAt solver task constraints depth start) search feedback search') :
    search'.step = depth ∧ feedback.step = depth ∧
      (feedback.verdict = .definite ∨ feedback.verdict = .noneFound) := by
  obtain ⟨_, _, checked, runs⟩ := runs_bind_iff.mp runs
  obtain ⟨rfl, rfl⟩ := runs_checkStart_iff.mp checked
  simp only at runs
  rw [runs_ite_iff] at runs
  split at runs
  · obtain ⟨_, _, failed, _⟩ := runs_bind_iff.mp runs
    exact absurd failed not_runs_fail
  rename_i notBehind
  obtain ⟨_, second, begun, runs⟩ := runs_bind_iff.mp runs
  obtain ⟨_, third, extended, runs⟩ := runs_bind_iff.mp runs
  have ahead : second.step ≤ depth := step_of_runs_begin begun ▸ Nat.le_of_not_lt notBehind
  have here := step_of_runs_extendTo ahead extended
  obtain ⟨f, _, found, runs⟩ := runs_bind_iff.mp runs
  obtain ⟨_, rfl⟩ := runs_ofFault_iff.mp found
  obtain ⟨answer, fourth, classified, runs⟩ := runs_bind_iff.mp runs
  obtain ⟨step, isFound⟩ := found_of_runs_classify classified
  cases answer with
  | none =>
      obtain ⟨rfl, rfl⟩ := runs_pure_iff.mp runs
      exact ⟨step.trans here, rfl, .inr rfl⟩
  | some answer =>
      simp only at runs
      rw [runs_ite_iff] at runs
      split at runs
      · exact absurd runs not_runs_fail
      rename_i notPossible
      obtain ⟨rfl, rfl⟩ := runs_pure_iff.mp runs
      obtain ⟨isDepth, isViolation⟩ := isFound answer rfl
      exact ⟨step.trans here, isDepth, .inl (Verdict.eq_definite notPossible isViolation)⟩

/-! ## Errors -/

/-- No part of a search misuses another one. -/
theorem keptBySteps_not_isMisuse :
    KeptBySteps solver (fun _ => True) fun error => ¬error.IsMisuse where
  asked _ _ _ := trivial
  unanswered _ _ _ _ := id
  range _ isRange := isRange.not_isMisuse
  taken _ _ _ := trivial
  counted _ _ := trivial

/-- A search of all depths that starts where it has come to is no misuse. -/
theorem not_isMisuse_of_fails_evaluate {error : CheckError} (here : start = search.step)
    (fails : Fails (evaluate solver task start condition) search error search') :
    ¬error.IsMisuse :=
  ((keptBySteps_not_isMisuse.keepsAt_evaluate trivial condition fun elsewhere =>
    absurd here elsewhere).of_fails fails).2

/-- A search of one depth that goes on from where it has come to is no misuse. -/
theorem not_isMisuse_of_fails_evaluateAt {error : CheckError} (here : start = search.step)
    (ahead : start ≤ depth)
    (fails : Fails (evaluateAt solver task constraints depth start) search error search') :
    ¬error.IsMisuse :=
  ((keptBySteps_not_isMisuse.keepsAt_evaluateAt trivial constraints
    (fun elsewhere => absurd here elsewhere) (fun behind => absurd ahead (Nat.not_le_of_lt behind))
    id).of_fails fails).2

end Search

end Trivalent
