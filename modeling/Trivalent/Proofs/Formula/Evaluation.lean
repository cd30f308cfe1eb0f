import Trivalent.Formula.Basic

/-!
# Values of formulas

The folding constructors have the values of the connectives that they stand for.  Moving a formula
in time and fixing one of its atoms amount to changing the valuation.
-/

namespace Trivalent

/-- A valuation with another value for one atom. -/
def Valuation.fix (v : Valuation) (fixed : Atom) (value : Bool) : Valuation :=
  fun a => if a = fixed then value else v a

namespace Formula

@[simp]
theorem eval_atom (v : Valuation) (a : Atom) : (Formula.atom a).eval v = v a := by
  simp [eval]

@[simp]
theorem eval_not (v : Valuation) (f : Formula) : (Formula.not f).eval v = !f.eval v := by
  simp [eval]

@[simp]
theorem eval_and (v : Valuation) (operands : List Formula) :
    (Formula.and operands).eval v = operands.all (eval v) := by
  rw [eval, evalAll_eq_all]

@[simp]
theorem eval_or (v : Valuation) (operands : List Formula) :
    (Formula.or operands).eval v = operands.any (eval v) := by
  rw [eval, evalAny_eq_any]

/-! ## Folding constructors -/

theorem isFalse_eq_true_iff {f : Formula} : f.isFalse = true ↔ f = .or [] := by
  unfold isFalse
  split <;> simp_all

theorem isTrue_eq_true_iff {f : Formula} : f.isTrue = true ↔ f = .and [] := by
  unfold isTrue
  split <;> simp_all

theorem all_conjuncts (v : Valuation) (f : Formula) : f.conjuncts.all (eval v) = f.eval v := by
  cases f <;> simp [conjuncts]

theorem any_disjuncts (v : Valuation) (f : Formula) : f.disjuncts.any (eval v) = f.eval v := by
  cases f <;> simp [disjuncts]

@[simp]
theorem eval_conj (v : Valuation) (operands : List Formula) :
    (conj operands).eval v = operands.all (eval v) := by
  have flattened : (operands.flatMap conjuncts).all (eval v) = operands.all (eval v) := by
    simp only [List.all_flatMap, all_conjuncts]
  unfold conj
  split
  · rename_i hasFalse
    rcases List.any_eq_true.mp hasFalse with ⟨f, member, isFalse⟩
    rw [isFalse_eq_true_iff.mp isFalse] at member
    symm
    simpa using ⟨_, member, by simp⟩
  · rw [← flattened]
    split
    · rename_i single
      simp [single]
    · simp

@[simp]
theorem eval_disj (v : Valuation) (operands : List Formula) :
    (disj operands).eval v = operands.any (eval v) := by
  have flattened : (operands.flatMap disjuncts).any (eval v) = operands.any (eval v) := by
    simp only [List.any_flatMap, any_disjuncts]
  unfold disj
  split
  · rename_i hasTrue
    rcases List.any_eq_true.mp hasTrue with ⟨f, member, isTrue⟩
    rw [isTrue_eq_true_iff.mp isTrue] at member
    symm
    simpa using ⟨_, member, by simp⟩
  · rw [← flattened]
    split
    · rename_i single
      simp [single]
    · simp

@[simp]
theorem eval_iff (v : Valuation) (f g : Formula) :
    (iff f g).eval v = (f.eval v == g.eval v) := by
  cases left : f.eval v <;> cases right : g.eval v <;> simp [iff, left, right]

@[simp]
theorem eval_implies (v : Valuation) (f g : Formula) :
    (implies f g).eval v = (!f.eval v || g.eval v) := by
  simp [implies]

/-! ## Moving in time -/

mutual

/-- A formula that is moved in time reads every atom that many steps later. -/
theorem eval_shift (v : Valuation) (steps : Nat) (f : Formula) :
    (f.shift steps).eval v = f.eval fun a => v (a.shift steps) := by
  cases f with
  | atom a => simp [shift]
  | not body => simp [shift, eval_shift v steps body]
  | and operands => simpa [shift, evalAll_eq_all] using evalAll_shiftAll v steps operands
  | or operands => simpa [shift, evalAny_eq_any] using evalAny_shiftAll v steps operands

theorem evalAll_shiftAll (v : Valuation) (steps : Nat) (operands : List Formula) :
    evalAll v (shiftAll steps operands) = evalAll (fun a => v (a.shift steps)) operands := by
  cases operands with
  | nil => simp [shiftAll, evalAll]
  | cons f rest => simp [shiftAll, evalAll, eval_shift v steps f, evalAll_shiftAll v steps rest]

theorem evalAny_shiftAll (v : Valuation) (steps : Nat) (operands : List Formula) :
    evalAny v (shiftAll steps operands) = evalAny (fun a => v (a.shift steps)) operands := by
  cases operands with
  | nil => simp [shiftAll, evalAny]
  | cons f rest => simp [shiftAll, evalAny, eval_shift v steps f, evalAny_shiftAll v steps rest]

end

/-! ## Fixing an atom -/

mutual

/-- A formula with a constant in place of an atom has the value that it has when the atom is that
constant. -/
theorem eval_substitute (v : Valuation) (fixed : Atom) (value : Bool) (f : Formula) :
    (f.substitute fixed value).eval v = f.eval (v.fix fixed value) := by
  cases f with
  | atom a =>
      unfold substitute Valuation.fix
      split <;> simp_all
  | not body => simp [substitute, eval_substitute v fixed value body]
  | and operands =>
      rw [substitute, eval_conj, eval_and, all_substituteAll]
  | or operands =>
      rw [substitute, eval_disj, eval_or, any_substituteAll]

theorem all_substituteAll (v : Valuation) (fixed : Atom) (value : Bool)
    (operands : List Formula) :
    (substituteAll fixed value operands).all (eval v) =
      operands.all (eval (v.fix fixed value)) := by
  cases operands with
  | nil => rfl
  | cons f rest =>
      rw [substituteAll, List.all_cons, List.all_cons, eval_substitute v fixed value f,
        all_substituteAll v fixed value rest]

theorem any_substituteAll (v : Valuation) (fixed : Atom) (value : Bool)
    (operands : List Formula) :
    (substituteAll fixed value operands).any (eval v) =
      operands.any (eval (v.fix fixed value)) := by
  cases operands with
  | nil => rfl
  | cons f rest =>
      rw [substituteAll, List.any_cons, List.any_cons, eval_substitute v fixed value f,
        any_substituteAll v fixed value rest]

end

end Formula

end Trivalent
