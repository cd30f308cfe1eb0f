import Trivalent.Formula.Basic

/-!
# Solvers

A solver holds a conjunction of formulas and says whether it is satisfiable.  It may fail to answer,
and goes on holding its formulas when it does.
-/

namespace Trivalent.Sat

/-- What is said of a conjunction. -/
inductive Answer (α : Type) where
  /-- It is true for this valuation. -/
  | satisfiable (model : α)
  /-- It is false for every valuation. -/
  | unsatisfiable
  /-- No answer was found. -/
  | failed

/-- A solver with states of type `σ`. -/
structure Solver (σ : Type) where
  /-- Forgets all formulas. -/
  reset : σ → σ
  /-- Takes a formula into the conjunction. -/
  add : σ → Formula → σ
  /-- Says whether the conjunction is satisfiable. -/
  solve : σ → Answer Valuation × σ

namespace Solver

variable {σ : Type}

/-- The state in which the conjunction is the given one. -/
def load (solver : Solver σ) (state : σ) (formulas : List Formula) : σ :=
  formulas.foldl solver.add (solver.reset state)

/-- A solver that collects its formulas holds exactly those that it was given since it was reset. -/
theorem load_of_collects {solver : Solver (List Formula)}
    (reset : ∀ state, solver.reset state = [])
    (add : ∀ held f, solver.add held f = held ++ [f]) (state formulas : List Formula) :
    solver.load state formulas = formulas := by
  have added : ∀ held : List Formula, formulas.foldl solver.add held = held ++ formulas := by
    induction formulas with
    | nil => simp
    | cons f rest ih =>
        intro held
        rw [List.foldl_cons, ih, add, List.append_assoc, List.singleton_append]
  rw [load, reset, added, List.nil_append]

end Solver

/-! ## Interrupted solvers -/

/-- A solver that counts its calls, and of which one call may be interrupted. -/
structure Interrupted (σ : Type) where
  /-- The state of the solver. -/
  state : σ
  /-- The number of calls so far. -/
  calls : Nat

/-- The solver of which the call behind the first `calls` ones has no answer. -/
def Solver.interruptedAfter {σ : Type} (solver : Solver σ) (calls : Option Nat) :
    Solver (Interrupted σ) where
  reset s := { s with state := solver.reset s.state }
  add s f := { s with state := solver.add s.state f }
  solve s :=
    if some s.calls = calls then (.failed, { s with calls := s.calls + 1 })
    else
      let (answer, state) := solver.solve s.state
      (answer, ⟨state, s.calls + 1⟩)

end Trivalent.Sat
