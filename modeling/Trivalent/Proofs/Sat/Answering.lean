import Trivalent.Proofs.Sat.Correct

/-!
# Solvers that answer from a state on

A solver is asked about formulas again and again, each time behind a reset.  It may fail to answer
until it is in some state, and answer from there on.  One that is interrupted once does so when its
interruption is over.
-/

namespace Trivalent.Sat

variable {σ : Type} {solver : Solver σ} {state : σ}

/-- The state of a solver that was asked about formulas. -/
def Solver.asked (solver : Solver σ) (state : σ) (formulas : List Formula) : σ :=
  (solver.solve (solver.load state formulas)).2

/-- From a state on a solver answers whatever it is asked, and however often. -/
def Solver.AnswersFrom (solver : Solver σ) (state : σ) : Prop :=
  ∀ (questions : List (List Formula)) (formulas : List Formula),
    (solver.solve (solver.load (questions.foldl solver.asked state) formulas)).1 ≠ .failed

theorem Solver.AnswersFrom.answers (answersFrom : solver.AnswersFrom state)
    (formulas : List Formula) : (solver.solve (solver.load state formulas)).1 ≠ .failed :=
  answersFrom [] formulas

theorem Solver.AnswersFrom.asked (answersFrom : solver.AnswersFrom state)
    (formulas : List Formula) : solver.AnswersFrom (solver.asked state formulas) :=
  fun questions => answersFrom (formulas :: questions)

theorem Solver.Correct.answersFrom (correct : solver.Correct) (state : σ) :
    solver.AnswersFrom state :=
  fun _ => correct.answers _

/-! ## Interrupted solvers -/

section Interrupted

variable (solver) (calls : Option Nat)

/-- No call is counted before the solver is asked. -/
theorem load_interruptedAfter (s : Interrupted σ) (formulas : List Formula) :
    (solver.interruptedAfter calls).load s formulas = ⟨solver.load s.state formulas, s.calls⟩ := by
  have added (s : Interrupted σ) : formulas.foldl (solver.interruptedAfter calls).add s =
      ⟨formulas.foldl solver.add s.state, s.calls⟩ := by
    induction formulas generalizing s with
    | nil => rfl
    | cons f rest ih => exact ih _
  exact added _

variable {solver}

theorem Solver.Sound.interruptedAfter (sound : solver.Sound) :
    (solver.interruptedAfter calls).Sound := by
  intro s formulas
  rw [load_interruptedAfter]
  show (if some s.calls = calls then _ else _ : Answer Valuation × Interrupted σ).1.Right formulas
  split
  · trivial
  · exact sound s.state formulas

variable {calls}

/-- When the interruption is over, or there is none, a correct solver answers. -/
theorem Solver.Correct.answersFrom_interruptedAfter (correct : solver.Correct) {s : Interrupted σ}
    (behind : ∀ n, calls = some n → n < s.calls) :
    (solver.interruptedAfter calls).AnswersFrom s := by
  intro questions formulas
  induction questions generalizing s with
  | nil =>
      have passed : some s.calls ≠ calls := fun same => Nat.lt_irrefl _ (behind s.calls same.symm)
      rw [List.foldl_nil, load_interruptedAfter]
      show (if some s.calls = calls then _ else _ : Answer Valuation × Interrupted σ).1 ≠ .failed
      rw [if_neg passed]
      exact correct.answers s.state formulas
  | cons question questions ih =>
      have counted : ((solver.interruptedAfter calls).asked s question).calls = s.calls + 1 := by
        rw [Solver.asked, load_interruptedAfter]
        show (if some s.calls = calls then _ else _ : Answer Valuation × Interrupted σ).2.calls = _
        split <;> rfl
      refine ih fun n isAfter => ?_
      rw [counted]
      exact Nat.lt_succ_of_lt (behind n isAfter)

end Interrupted

end Trivalent.Sat
