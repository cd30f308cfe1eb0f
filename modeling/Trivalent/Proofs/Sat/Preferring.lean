import Trivalent.Proofs.Sat.Correct

/-!
# Solvers with a preference

A correct solver is free to choose among the models of its formulas.  So for every valuation there is
one that answers with it whenever it is a model.
-/

namespace Trivalent.Sat

/-- A solver answers with a valuation whenever it makes all formulas true. -/
def Solver.Prefers {σ : Type} (solver : Solver σ) (v : Valuation) : Prop :=
  ∀ (state : σ) (formulas : List Formula), (∀ f ∈ formulas, f.eval v = true) →
    (solver.solve (solver.load state formulas)).1 = .satisfiable v

/-- The solver that tries a valuation first, and splits cases if it is no model. -/
def preferring (v : Valuation) : Solver (List Formula) where
  reset _ := []
  add formulas f := formulas ++ [f]
  solve formulas :=
    if formulas.all (Formula.eval v) then (.satisfiable v, formulas) else splitting.solve formulas

theorem load_preferring (v : Valuation) (state formulas : List Formula) :
    (preferring v).load state formulas = formulas :=
  Solver.load_of_collects (fun _ => rfl) (fun _ _ => rfl) state formulas

theorem preferring_prefers (v : Valuation) : (preferring v).Prefers v := by
  intro state formulas all
  rw [load_preferring]
  exact congrArg Prod.fst (if_pos (List.all_eq_true.mpr all))

theorem preferring_correct (v : Valuation) : (preferring v).Correct := by
  have split : ∀ state formulas : List Formula,
      (preferring v).solve ((preferring v).load state formulas) =
        if formulas.all (Formula.eval v) then (.satisfiable v, formulas)
        else splitting.solve (splitting.load state formulas) := by
    intro state formulas
    rw [load_preferring, load_splitting]
    rfl
  constructor
  case sound =>
    intro state formulas
    rw [split]
    split
    · rename_i all
      exact List.all_eq_true.mp all
    · exact splitting_correct.sound state formulas
  case answers =>
    intro state formulas
    rw [split]
    split
    · exact nofun
    · exact splitting_correct.answers state formulas

end Trivalent.Sat
