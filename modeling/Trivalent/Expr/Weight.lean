import Trivalent.Expr.Basic

/-!
# The weight of expressions

Every sign of an expression weighs one, except that a negated predicate weighs no more than the
predicate.  An expression in negation normal form weighs no more than the expression, so where
anything but a predicate is negated, its negation in normal form weighs less.
-/

namespace Trivalent.Expr

/-- The predicate that an expression is, if it is one. -/
def predicate? : Expr → Option Nat
  | .predicate id => some id
  | _ => none

mutual

/-- The weight of an expression. -/
def weight : Expr → Nat
  | .literal _ => 1
  | .predicate _ => 1
  | .not body => if body.predicate?.isSome then 1 else body.weight + 1
  | .and operands => weightAll operands + 1
  | .or operands => weightAll operands + 1

/-- The weight of a list of expressions. -/
def weightAll : List Expr → Nat
  | [] => 0
  | e :: rest => e.weight + weightAll rest

end

variable {e : Expr} {es : List Expr}

theorem weight_not (compound : e.predicate? = none) : (Expr.not e).weight = e.weight + 1 := by
  simp [weight, compound]

theorem weight_le_weight_not (e : Expr) : e.weight ≤ (Expr.not e).weight := by
  cases e with
  | predicate id => exact Nat.le_refl 1
  | _ => exact Nat.le_succ _

theorem weight_le_weightAll (member : e ∈ es) : e.weight ≤ weightAll es := by
  induction es with
  | nil => exact absurd member List.not_mem_nil
  | cons first rest ih =>
      rw [weightAll]
      rcases List.mem_cons.mp member with rfl | later
      · exact Nat.le_add_right _ _
      · exact Nat.le_trans (ih later) (Nat.le_add_left _ _)

theorem weightAll_append (es fs : List Expr) :
    weightAll (es ++ fs) = weightAll es + weightAll fs := by
  induction es with
  | nil => simp [weightAll]
  | cons e rest ih => rw [List.cons_append, weightAll, weightAll, ih, Nat.add_assoc]

/-! ## Folding constructors -/

theorem weightAll_conjuncts_le (e : Expr) : weightAll e.conjuncts ≤ e.weight := by
  unfold conjuncts
  split <;> simp [weight, weightAll]

theorem weightAll_disjuncts_le (e : Expr) : weightAll e.disjuncts ≤ e.weight := by
  unfold disjuncts
  split <;> simp [weight, weightAll]

/-- Operands that are taken apart weigh no more. -/
theorem weightAll_flatMap_le {parts : Expr → List Expr}
    (each : ∀ e, weightAll (parts e) ≤ e.weight) (es : List Expr) :
    weightAll (es.flatMap parts) ≤ weightAll es := by
  induction es with
  | nil => exact Nat.le_refl _
  | cons e rest ih =>
      rw [List.flatMap_cons, weightAll_append, weightAll]
      exact Nat.add_le_add (each e) ih

theorem weight_conj_le (es : List Expr) : (conj es).weight ≤ weightAll es + 1 := by
  have taken := weightAll_flatMap_le weightAll_conjuncts_le es
  unfold conj
  split
  · simp [weight]
  · split
    · simp [weight]
    · rename_i e single
      rw [single, weightAll, weightAll] at taken
      omega
    · rw [weight]
      omega

theorem weight_disj_le (es : List Expr) : (disj es).weight ≤ weightAll es + 1 := by
  have taken := weightAll_flatMap_le weightAll_disjuncts_le es
  unfold disj
  split
  · simp [weight]
  · split
    · simp [weight]
    · rename_i e single
      rw [single, weightAll, weightAll] at taken
      omega
    · rw [weight]
      omega

/-! ## Negation normal form -/

mutual

/-- An expression, or its negation, weighs no more in negation normal form. -/
theorem weight_polarised_le (negated : Bool) (e : Expr) :
    (e.polarised negated).weight ≤ e.weight := by
  cases e with
  | literal value => exact Nat.le_refl 1
  | predicate id => cases negated <;> exact Nat.le_refl 1
  | not body =>
      rw [polarised]
      exact Nat.le_trans (weight_polarised_le (!negated) body) (weight_le_weight_not body)
  | and operands =>
      have pushed := weightAll_polarisedAll_le negated operands
      rw [polarised, weight]
      cases negated with
      | true => exact Nat.le_trans (weight_disj_le _) (Nat.succ_le_succ pushed)
      | false => exact Nat.le_trans (weight_conj_le _) (Nat.succ_le_succ pushed)
  | or operands =>
      have pushed := weightAll_polarisedAll_le negated operands
      rw [polarised, weight]
      cases negated with
      | true => exact Nat.le_trans (weight_conj_le _) (Nat.succ_le_succ pushed)
      | false => exact Nat.le_trans (weight_disj_le _) (Nat.succ_le_succ pushed)

theorem weightAll_polarisedAll_le (negated : Bool) (es : List Expr) :
    weightAll (polarisedAll negated es) ≤ weightAll es := by
  cases es with
  | nil => exact Nat.le_refl _
  | cons e rest =>
      rw [polarisedAll, weightAll, weightAll]
      exact Nat.add_le_add (weight_polarised_le negated e) (weightAll_polarisedAll_le negated rest)

end

/-- The negation of what is no predicate weighs less once it is pushed down. -/
theorem weight_negate_lt (compound : e.predicate? = none) :
    e.negate.weight < (Expr.not e).weight := by
  rw [weight_not compound]
  exact Nat.lt_succ_of_le (weight_polarised_le true e)

end Trivalent.Expr
