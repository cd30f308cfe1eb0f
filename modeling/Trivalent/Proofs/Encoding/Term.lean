import Trivalent.Encoding.Term
import Trivalent.Proofs.Encoding.State

/-!
# Terms mean what their formulas say

The formula of an expression is true exactly where the three-valued value of the expression, read as
the wildcard says, holds.  So the formulas of guards and updates are true exactly where guards hold
and updates are allowed.
-/

namespace Trivalent.Encoding

/-! ## Expressions -/

theorem eval_occurrence (v : Valuation) (predicate : Nat) (positive : Bool) (step : Nat) :
    (occurrence predicate positive step).eval v =
      ((decodeStatus v predicate step).signed !positive).reads (v .wildcard) := by
  rw [decodeStatus_eq_statusOfBits]
  cases unknown : v (.predicate predicate .unknown step false) <;>
    cases truth : v (.predicate predicate .truth step false) <;>
      cases positive <;>
        simp [occurrence, statusOfBits, unknown, truth, Status.signed, Status.neg, Status.reads]

theorem normalFormula_not_predicate (step id : Nat) :
    normalFormula step (.not (.predicate id)) = occurrence id false step := by
  rw [normalFormula]
  rfl

theorem all_conjuncts (v : Valuation) (step : Nat) (e : Expr) :
    (e.conjuncts.all fun e => (normalFormula step e).eval v) = (normalFormula step e).eval v := by
  unfold Expr.conjuncts
  split
  · simp [normalFormula]
  · simp [normalFormula, Function.comp_def]
  · simp

theorem any_disjuncts (v : Valuation) (step : Nat) (e : Expr) :
    (e.disjuncts.any fun e => (normalFormula step e).eval v) = (normalFormula step e).eval v := by
  unfold Expr.disjuncts
  split
  · simp [normalFormula]
  · simp [normalFormula, Function.comp_def]
  · simp

/-- The folding conjunction of expressions becomes a conjunction of formulas. -/
theorem eval_normalFormula_conj (v : Valuation) (step : Nat) (operands : List Expr) :
    (normalFormula step (.conj operands)).eval v =
      operands.all fun e => (normalFormula step e).eval v := by
  have flattened : ((operands.flatMap Expr.conjuncts).all fun e => (normalFormula step e).eval v) =
      operands.all fun e => (normalFormula step e).eval v := by
    simp only [List.all_flatMap, all_conjuncts]
  unfold Expr.conj
  split
  · rename_i hasFalse
    rcases List.any_eq_true.mp hasFalse with ⟨e, member, isFalse⟩
    rw [Expr.isLiteral_eq_true_iff.mp isFalse] at member
    symm
    simpa [normalFormula] using ⟨_, member, by simp [normalFormula]⟩
  · rw [← flattened]
    split
    · rename_i none
      simp [none, normalFormula]
    · rename_i single
      simp [single]
    · simp [normalFormula, Function.comp_def]

/-- The folding disjunction of expressions becomes a disjunction of formulas. -/
theorem eval_normalFormula_disj (v : Valuation) (step : Nat) (operands : List Expr) :
    (normalFormula step (.disj operands)).eval v =
      operands.any fun e => (normalFormula step e).eval v := by
  have flattened : ((operands.flatMap Expr.disjuncts).any fun e => (normalFormula step e).eval v) =
      operands.any fun e => (normalFormula step e).eval v := by
    simp only [List.any_flatMap, any_disjuncts]
  unfold Expr.disj
  split
  · rename_i hasTrue
    rcases List.any_eq_true.mp hasTrue with ⟨e, member, isTrue⟩
    rw [Expr.isLiteral_eq_true_iff.mp isTrue] at member
    symm
    simpa [normalFormula] using ⟨_, member, by simp [normalFormula]⟩
  · rw [← flattened]
    split
    · rename_i none
      simp [none, normalFormula]
    · rename_i single
      simp [single]
    · simp [normalFormula, Function.comp_def]

/-- The statuses that a valuation gives the predicates at a step. -/
abbrev statuses (v : Valuation) (step : Nat) : Nat → Status := fun id =>
  decodeStatus v id step

mutual

/-- The formula of an expression or of its negation says that the value of the expression or its
negation holds, read as the wildcard says. -/
theorem eval_exprFormula (v : Valuation) (step : Nat) (negated : Bool) (e : Expr) :
    (exprFormula e step negated).eval v =
      ((e.kleene (statuses v step)).signed negated).reads (v .wildcard) := by
  cases e with
  | literal value =>
      simp [exprFormula, Expr.polarised, normalFormula, Expr.kleene, Status.signed_ofBool]
  | predicate id =>
      cases negated with
      | false => simp [exprFormula, Expr.polarised, normalFormula, Expr.kleene, eval_occurrence]
      | true =>
          rw [exprFormula, Expr.polarised, if_pos rfl, normalFormula_not_predicate]
          simp [Expr.kleene, eval_occurrence]
  | not body =>
      have inner := eval_exprFormula v step (!negated) body
      rw [Expr.kleene, Status.signed_neg, ← inner, exprFormula, exprFormula, Expr.polarised]
  | and operands =>
      rw [exprFormula, Expr.polarised, Expr.kleene]
      cases negated with
      | false =>
          rw [if_neg Bool.false_ne_true, eval_normalFormula_conj,
            all_polarisedAll v step false operands]
          simp [Expr.reads_kleeneAll]
      | true =>
          rw [if_pos rfl, eval_normalFormula_disj, any_polarisedAll v step true operands]
          simp [Expr.reads_neg_kleeneAll]
  | or operands =>
      rw [exprFormula, Expr.polarised, Expr.kleene]
      cases negated with
      | false =>
          rw [if_neg Bool.false_ne_true, eval_normalFormula_disj,
            any_polarisedAll v step false operands]
          simp [Expr.reads_kleeneAny]
      | true =>
          rw [if_pos rfl, eval_normalFormula_conj, all_polarisedAll v step true operands]
          simp [Expr.reads_neg_kleeneAny]

theorem all_polarisedAll (v : Valuation) (step : Nat) (negated : Bool) (operands : List Expr) :
    ((Expr.polarisedAll negated operands).all fun e => (normalFormula step e).eval v) =
      operands.all fun e =>
        ((e.kleene (statuses v step)).signed negated).reads (v .wildcard) := by
  cases operands with
  | nil => rfl
  | cons e rest =>
      rw [Expr.polarisedAll, List.all_cons, List.all_cons, all_polarisedAll v step negated rest,
        ← eval_exprFormula v step negated e, exprFormula]

theorem any_polarisedAll (v : Valuation) (step : Nat) (negated : Bool) (operands : List Expr) :
    ((Expr.polarisedAll negated operands).any fun e => (normalFormula step e).eval v) =
      operands.any fun e =>
        ((e.kleene (statuses v step)).signed negated).reads (v .wildcard) := by
  cases operands with
  | nil => rfl
  | cons e rest =>
      rw [Expr.polarisedAll, List.any_cons, List.any_cons, any_polarisedAll v step negated rest,
        ← eval_exprFormula v step negated e, exprFormula]

end

/-- Fixing the wildcard does not change what is known of the predicates. -/
theorem statuses_fix_wildcard (v : Valuation) (step : Nat) (value : Bool) :
    statuses (v.fix .wildcard value) step = statuses v step := by
  funext id
  simp [statuses, decodeStatus, Valuation.fix]

/-- An expression or its negation is possible where it does not fail for certain. -/
theorem eval_possibly (v : Valuation) (step : Nat) (negated : Bool) (e : Expr) :
    (possibly e step negated).eval v =
      ((e.kleene (statuses v step)).signed negated).reads true := by
  rw [possibly, Formula.eval_substitute, eval_exprFormula, statuses_fix_wildcard]
  simp [Valuation.fix]

/-! ## Guards and updates -/

/-- The formula of a guard is true exactly where the guard holds. -/
theorem eval_guard (v : Valuation) (term : Term) (step : Nat) :
    (guard term step).eval v = term.holds (v .wildcard) (statuses v step) := by
  cases term with
  | plain body => simp [guard, Term.holds, eval_exprFormula]
  | choice left right =>
      simp only [guard, Term.holds]
      split
      · simp
      split
      · simp
      split
      · simp
      simp [eval_exprFormula, Bool.or_assoc]

/-- The formula of a choice is true exactly where the choice allows the next status. -/
theorem eval_updateChoice (v : Valuation) (left right : Expr) (predicate : Nat) :
    (updateChoice left right predicate).eval v =
      Term.choiceAllows (v .wildcard) (statuses v current) left right
        (decodeStatus v predicate next) := by
  have becomes : ∀ status, (statusFormula predicate status next false).eval v =
      decide (decodeStatus v predicate next = status) := by
    intro status
    rw [eval_statusFormula, decodeStatus_eq_statusOfBits]
  unfold updateChoice Term.choiceAllows
  simp only
  split
  · exact becomes .yes
  split
  · exact becomes .no
  split
  · exact becomes .unknown
  simp [becomes, eval_exprFormula, eval_possibly, Expr.kleene_disj, Expr.kleeneAny,
    Bool.or_assoc]

/-- The formula of an update is true exactly where the update allows the next status. -/
theorem eval_update (v : Valuation) (assignment : Assignment) :
    (update assignment).eval v =
      assignment.value.allows (v .wildcard) (statuses v current)
        (decodeStatus v assignment.predicate next) :=
  eval_updateChoice v _ _ _

end Trivalent.Encoding
