import Trivalent.Proofs.Encoding.Term
import Trivalent.Proofs.Formula.Occurrence

/-!
# Encodings in three-valued logic

What the formulas of expressions and guards say of three-valued values.  With the wildcard false a
formula says that a value is true, and with the wildcard true that a value is not false.  Optimistically
an expression and its negation may both hold, so a choice looks at its sides one by one: it fails only
where the left side is false and the right one true.
-/

namespace Trivalent

/-- The three-valued value of an expression whose predicates have the statuses of a step. -/
def Valuation.kleeneAt (v : Valuation) (step : Nat) (e : Expr) : Status :=
  e.kleene fun id => Encoding.decodeStatus v id step

/-! ## Readings -/

namespace Status

theorem reads_eq_true_iff {wildcard : Bool} {s : Status} :
    s.reads wildcard = true ↔ if wildcard then s ≠ .no else s = .yes := by
  cases wildcard <;> cases s <;> decide

theorem neg_eq_yes_iff {s : Status} : s.neg = .yes ↔ s = .no := by
  cases s <;> decide

/-- A choice holds pessimistically if its left side does, and optimistically unless its sides agree
that it fails. -/
theorem reads_choice_iff {wildcard : Bool} {left right : Status} :
    ((left.reads wildcard || right.neg.reads wildcard) &&
        (left.reads wildcard || right.reads wildcard || wildcard)) = true ↔
      if wildcard then ¬(left = .no ∧ right = .yes) else left = .yes := by
  cases wildcard <;> cases left <;> cases right <;> decide

end Status

namespace Term

variable {wildcard : Bool} {status : Nat → Status}

theorem holds_plain_iff {body : Expr} : (plain body).holds wildcard status = true ↔
    if wildcard then body.kleene status ≠ .no else body.kleene status = .yes :=
  Status.reads_eq_true_iff

/-- The constants among the sides of a choice do not change what it means, but for one case: if only
its right side is the constant true, it never holds. -/
theorem holds_choice_iff {left right : Expr} : (choice left right).holds wildcard status = true ↔
    ¬(right = .literal true ∧ left ≠ .literal true) ∧
      if wildcard then ¬(left.kleene status = .no ∧ right.kleene status = .yes)
      else left.kleene status = .yes := by
  have constant (value : Bool) : (Expr.literal value).kleene status = .ofBool value := by
    rw [Expr.kleene]
  unfold holds
  simp only
  split
  · rename_i always
    rw [Expr.isLiteral_eq_true_iff.mp always, constant]
    cases wildcard <;> simp [Status.ofBool]
  rename_i notAlways
  rw [Expr.isLiteral_eq_true_iff] at notAlways
  split
  · rename_i never
    simp [Expr.isLiteral_eq_true_iff.mp never, notAlways]
  rename_i notNever
  rw [Expr.isLiteral_eq_true_iff] at notNever
  split
  · rename_i unknown
    rw [Bool.and_eq_true, Expr.isLiteral_eq_true_iff, Expr.isLiteral_eq_true_iff] at unknown
    rw [unknown.1, unknown.2, constant]
    cases wildcard <;> simp [Status.ofBool]
  · rw [Status.reads_choice_iff]
    simp [notNever]

/-- The choice between an expression and its negation is the same guard as the expression. -/
theorem holds_choice_negate (body : Expr) :
    (choice body body.negate).holds wildcard status = (plain body).holds wildcard status := by
  have negated : body.negate.kleene status = (body.kleene status).neg := Expr.kleene_negate body
  -- A negation that folds to the constant true leaves the choice no way to hold.
  have fails : body.negate = .literal true → body.kleene status = .no := by
    intro isTrue
    rw [isTrue, Expr.kleene] at negated
    exact Status.neg_eq_yes_iff.mp negated.symm
  rw [Bool.eq_iff_iff, holds_choice_iff, holds_plain_iff, negated, Status.neg_eq_yes_iff, and_self]
  refine and_iff_right_of_imp fun holds excepted => ?_
  rw [fails excepted.1] at holds
  cases wildcard <;> simp at holds

end Term

/-! ## Formulas -/

namespace Encoding

variable (v : Valuation) (step : Nat)

/-- The formula of an expression, or of its negation, says that its three-valued value is true, or
with the wildcard that it is not false.  The formula for what is possible always says the latter, and
without the wildcard. -/
theorem eval_exprFormula_iff_kleene (negated : Bool) (e : Expr) :
    ((exprFormula e step negated).eval v = true ↔
        if v .wildcard then v.kleeneAt step (if negated then e.not else e) ≠ .no
        else v.kleeneAt step (if negated then e.not else e) = .yes) ∧
      ((possibly e step negated).eval v = true ↔
        v.kleeneAt step (if negated then e.not else e) ≠ .no) ∧
        .wildcard ∉ (possibly e step negated).atoms := by
  have value : v.kleeneAt step (if negated then e.not else e) =
      (e.kleene (statuses v step)).signed negated := by
    cases negated with
    | false => rfl
    | true => rw [if_pos rfl, Valuation.kleeneAt, Expr.kleene, Status.signed_true]
  refine ⟨?_, ?_, Formula.not_mem_atoms_substitute _ _ _⟩
  · rw [eval_exprFormula, value, Status.reads_eq_true_iff]
  · rw [eval_possibly, value, Status.reads_eq_true_iff, if_pos rfl]

/-- Optimistically an unknown condition and its negation both hold. -/
example : let v : Valuation := fun a => a = .wildcard ∨ a = .predicate 0 .unknown 0 false
    (exprFormula (.predicate 0) 0 false).eval v = true ∧
      (exprFormula (.predicate 0) 0 true).eval v = true := by
  decide +kernel

/-- The formula of a guard says of three-valued values what the guard means.  An expression holds if
it is true, or with the wildcard if it is not false.  A choice holds if its left side is true, or with
the wildcard unless its left side is false and its right side true; but it never holds if its right
side is the constant true and its left side is not.  So the choice between an expression and its
negation is the same guard as the expression. -/
theorem eval_guard_iff_kleene :
    (∀ body, (guard (.plain body) step).eval v = true ↔
        if v .wildcard then v.kleeneAt step body ≠ .no else v.kleeneAt step body = .yes) ∧
      (∀ left right, (guard (.choice left right) step).eval v = true ↔
        ¬(right = .literal true ∧ left ≠ .literal true) ∧
          if v .wildcard then ¬(v.kleeneAt step left = .no ∧ v.kleeneAt step right = .yes)
          else v.kleeneAt step left = .yes) ∧
        ∀ body, (guard (.choice body body.negate) step).eval v =
          (guard (.plain body) step).eval v := by
  simp only [eval_guard]
  exact ⟨fun _ => Term.holds_plain_iff, fun _ _ => Term.holds_choice_iff,
    Term.holds_choice_negate⟩

end Encoding

end Trivalent
