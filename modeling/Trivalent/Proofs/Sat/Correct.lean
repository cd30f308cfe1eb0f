import Mathlib.Tactic.Common
import Trivalent.Proofs.Formula.Occurrence
import Trivalent.Sat.Solver

/-!
# Correct solvers

A correct solver always answers, and its answers are right about the formulas that it was given
since it was last reset.  One that splits the cases of every atom in turn is correct.
-/

namespace Trivalent.Sat

/-! ## Right answers -/

/-- An answer about formulas is right: a model makes all of them true, and if there is said to be
none then there is none. -/
def Answer.Right (formulas : List Formula) : Answer Valuation → Prop
  | .satisfiable v => ∀ f ∈ formulas, f.eval v = true
  | .unsatisfiable => ¬∃ v : Valuation, ∀ f ∈ formulas, f.eval v = true
  | .failed => True

/-- The answers of a solver are right, as far as it gives any. -/
def Solver.Sound {σ : Type} (solver : Solver σ) : Prop :=
  ∀ (state : σ) (formulas : List Formula),
    (solver.solve (solver.load state formulas)).1.Right formulas

/-- The answers of a solver are right, and it always gives one. -/
structure Solver.Correct {σ : Type} (solver : Solver σ) : Prop where
  sound : solver.Sound
  answers : ∀ (state : σ) (formulas : List Formula),
    (solver.solve (solver.load state formulas)).1 ≠ .failed

/-! ## Splitting -/

/-- A valuation that makes a formula true, found by giving every atom of a list both values in
turn. -/
def split : List Atom → Formula → Option Valuation
  | [], f => if f.eval fun _ => false then some fun _ => false else none
  | a :: rest, f =>
      if f.isFalse then none
      else
        match split rest (f.substitute a true) with
        | some v => some (v.fix a true)
        | none => (split rest (f.substitute a false)).map fun v => v.fix a false

theorem split_some {atoms : List Atom} {f : Formula} {v : Valuation}
    (found : split atoms f = some v) : f.eval v = true := by
  induction atoms generalizing f v with
  | nil =>
      unfold split at found
      split at found
      · rename_i isTrue
        rwa [← Option.some.inj found]
      · contradiction
  | cons a rest ih =>
      unfold split at found
      split at found
      · contradiction
      split at found
      · rename_i v' found'
        rw [← Option.some.inj found, ← Formula.eval_substitute]
        exact ih found'
      · rcases Option.map_eq_some_iff.mp found with ⟨v', found', rfl⟩
        rw [← Formula.eval_substitute]
        exact ih found'

theorem fix_self (v : Valuation) (a : Atom) : v.fix a (v a) = v := by
  funext b
  unfold Valuation.fix
  split
  · rename_i same
    rw [same]
  · rfl

/-- Where splitting finds nothing, there is nothing, if the value depends on no other atoms. -/
theorem split_none {atoms : List Atom} {f : Formula}
    (depends : ∀ v v' : Valuation, (∀ a ∈ atoms, v a = v' a) → f.eval v = f.eval v')
    (none : split atoms f = none) (v : Valuation) : f.eval v = false := by
  induction atoms generalizing f with
  | nil =>
      unfold split at none
      split at none
      · contradiction
      · rename_i isFalse
        rw [depends v (fun _ => false) (by simp)]
        simpa using isFalse
  | cons a rest ih =>
      have narrower : ∀ value : Bool, ∀ v v' : Valuation, (∀ b ∈ rest, v b = v' b) →
          (f.substitute a value).eval v = (f.substitute a value).eval v' := by
        intro value v v' agree
        rw [Formula.eval_substitute, Formula.eval_substitute]
        apply depends
        intro b member
        unfold Valuation.fix
        by_cases same : b = a
        · simp [same]
        · rw [if_neg same, if_neg same]
          exact agree b ((List.mem_cons.mp member).resolve_left same)
      unfold split at none
      split at none
      · rename_i isFalse
        simp [Formula.isFalse_eq_true_iff.mp isFalse]
      split at none
      · contradiction
      · rename_i noneIfTrue
        have noneIfFalse := Option.map_eq_none_iff.mp none
        rw [← fix_self v a, ← Formula.eval_substitute]
        cases v a with
        | true => exact ih (narrower true) noneIfTrue
        | false => exact ih (narrower false) noneIfFalse

/-- The solver that splits the cases of every atom of its formulas. -/
def splitting : Solver (List Formula) where
  reset _ := []
  add formulas f := formulas ++ [f]
  solve formulas :=
    match split (Formula.gatherAll [] formulas).eraseDups (.conj formulas) with
    | some v => (.satisfiable v, formulas)
    | none => (.unsatisfiable, formulas)

theorem load_splitting (state formulas : List Formula) :
    splitting.load state formulas = formulas :=
  Solver.load_of_collects (fun _ => rfl) (fun _ _ => rfl) state formulas

theorem splitting_correct : splitting.Correct := by
  constructor
  case sound =>
    intro state formulas
    rw [load_splitting]
    unfold splitting
    simp only
    split
    · rename_i v found
      have all := split_some found
      rw [Formula.eval_conj, List.all_eq_true] at all
      exact all
    · rename_i none
      rintro ⟨v, all⟩
      have never := split_none (fun v v' agree => ?_) none v
      · rw [Formula.eval_conj, ← Bool.not_eq_true, List.all_eq_true] at never
        exact never all
      · rw [Formula.eval_conj, Formula.eval_conj, ← Formula.evalAll_eq_all,
          ← Formula.evalAll_eq_all]
        refine (Formula.evalAll_congr formulas fun a occurs => agree a ?_).1
        exact List.mem_eraseDups.mpr occurs
  case answers =>
    intro state formulas
    unfold splitting
    simp only
    split
    · exact nofun
    · exact nofun

end Trivalent.Sat
