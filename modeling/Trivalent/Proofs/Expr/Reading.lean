import Trivalent.Expr.Kleene

/-!
# Reading three-valued conditions

A status is read as a truth value by saying what becomes of the unknown: read pessimistically an
unknown condition does not hold, and read optimistically it does.  Either reading turns Kleene's
conjunction and disjunction into the Boolean ones, but not the negation: both an unknown condition
and its negation hold optimistically.
-/

namespace Trivalent

namespace Status

/-- Whether a condition holds when unknown ones are taken to hold as `wildcard` says. -/
def reads (wildcard : Bool) : Status → Bool
  | .yes => true
  | .no => false
  | .unknown => wildcard

@[simp]
theorem reads_ofBool (wildcard value : Bool) : (ofBool value).reads wildcard = value := by
  cases value <;> rfl

@[simp]
theorem reads_and (wildcard : Bool) (s t : Status) :
    (s.and t).reads wildcard = (s.reads wildcard && t.reads wildcard) := by
  cases wildcard <;> cases s <;> cases t <;> rfl

@[simp]
theorem reads_or (wildcard : Bool) (s t : Status) :
    (s.or t).reads wildcard = (s.reads wildcard || t.reads wildcard) := by
  cases wildcard <;> cases s <;> cases t <;> rfl

theorem or_assoc (s t u : Status) : (s.or t).or u = s.or (t.or u) := by
  cases s <;> cases t <;> cases u <;> rfl

theorem and_assoc (s t u : Status) : (s.and t).and u = s.and (t.and u) := by
  cases s <;> cases t <;> cases u <;> rfl

@[simp]
theorem and_yes (s : Status) : s.and .yes = s := by
  cases s <;> rfl

@[simp]
theorem yes_and (s : Status) : Status.yes.and s = s := by
  cases s <;> rfl

@[simp]
theorem and_no (s : Status) : s.and .no = .no := by
  cases s <;> rfl

@[simp]
theorem no_and (s : Status) : Status.no.and s = .no := by
  cases s <;> rfl

@[simp]
theorem or_no (s : Status) : s.or .no = s := by
  cases s <;> rfl

@[simp]
theorem no_or (s : Status) : Status.no.or s = s := by
  cases s <;> rfl

@[simp]
theorem or_yes (s : Status) : s.or .yes = .yes := by
  cases s <;> rfl

@[simp]
theorem yes_or (s : Status) : Status.yes.or s = .yes := by
  cases s <;> rfl

theorem Below.trans {s t u : Status} (first : s.Below t) (second : t.Below u) : s.Below u := by
  rcases first with rfl | rfl
  · exact .inl rfl
  · exact second

/-- The status of a condition or of its negation. -/
def signed (negated : Bool) (s : Status) : Status :=
  if negated then s.neg else s

@[simp]
theorem signed_false (s : Status) : s.signed false = s :=
  rfl

@[simp]
theorem signed_true (s : Status) : s.signed true = s.neg :=
  rfl

theorem signed_neg (negated : Bool) (s : Status) : s.neg.signed negated = s.signed !negated := by
  cases negated <;> simp

theorem signed_ofBool (negated value : Bool) :
    (ofBool value).signed negated = ofBool (value != negated) := by
  cases negated <;> cases value <;> rfl

end Status

namespace Expr

variable {status : Nat → Status}

/-! ## Readings of lists -/

theorem reads_kleeneAll (wildcard : Bool) (operands : List Expr) :
    (kleeneAll status operands).reads wildcard =
      operands.all fun e => (e.kleene status).reads wildcard := by
  induction operands with
  | nil => rfl
  | cons e rest ih => simp [kleeneAll, ih]

theorem reads_kleeneAny (wildcard : Bool) (operands : List Expr) :
    (kleeneAny status operands).reads wildcard =
      operands.any fun e => (e.kleene status).reads wildcard := by
  induction operands with
  | nil => rfl
  | cons e rest ih => simp [kleeneAny, ih]

theorem reads_neg_kleeneAll (wildcard : Bool) (operands : List Expr) :
    (kleeneAll status operands).neg.reads wildcard =
      operands.any fun e => (e.kleene status).neg.reads wildcard := by
  induction operands with
  | nil => rfl
  | cons e rest ih => simp [kleeneAll, Status.neg_and, ih]

theorem reads_neg_kleeneAny (wildcard : Bool) (operands : List Expr) :
    (kleeneAny status operands).neg.reads wildcard =
      operands.all fun e => (e.kleene status).neg.reads wildcard := by
  induction operands with
  | nil => rfl
  | cons e rest ih => simp [kleeneAny, Status.neg_or, ih]

/-! ## The folding disjunction -/

theorem kleeneAny_append (first second : List Expr) :
    kleeneAny status (first ++ second) =
      (kleeneAny status first).or (kleeneAny status second) := by
  induction first with
  | nil => simp [kleeneAny]
  | cons e rest ih => simp [kleeneAny, ih, Status.or_assoc]

theorem kleeneAny_disjuncts (e : Expr) : kleeneAny status e.disjuncts = e.kleene status := by
  unfold disjuncts
  split <;> simp [kleeneAny, kleene, Status.ofBool]

theorem kleeneAny_flatMap_disjuncts (operands : List Expr) :
    kleeneAny status (operands.flatMap disjuncts) = kleeneAny status operands := by
  induction operands with
  | nil => rfl
  | cons e rest ih => simp [kleeneAny, kleeneAny_append, kleeneAny_disjuncts, ih]

theorem kleeneAny_eq_yes_of_mem {operands : List Expr} (member : .literal true ∈ operands) :
    kleeneAny status operands = .yes := by
  induction operands with
  | nil => simp at member
  | cons e rest ih =>
      rcases List.mem_cons.mp member with rfl | member
      · simp [kleeneAny, kleene, Status.ofBool]
      · simp [kleeneAny, ih member]

/-- The folding disjunction has the value of the disjunction. -/
theorem kleene_disj (operands : List Expr) :
    (disj operands).kleene status = kleeneAny status operands := by
  have flattened : kleeneAny status (operands.flatMap disjuncts) = kleeneAny status operands :=
    kleeneAny_flatMap_disjuncts operands
  unfold disj
  split
  · rename_i hasTrue
    rcases List.any_eq_true.mp hasTrue with ⟨e, member, isTrue⟩
    rw [isLiteral_eq_true_iff.mp isTrue] at member
    rw [kleeneAny_eq_yes_of_mem member]
    rfl
  · rw [← flattened]
    split
    · rename_i none
      simp [none, kleene, kleeneAny, Status.ofBool]
    · rename_i single
      simp [single, kleeneAny]
    · simp [kleene]

/-! ## The folding conjunction -/

theorem kleeneAll_append (first second : List Expr) :
    kleeneAll status (first ++ second) =
      (kleeneAll status first).and (kleeneAll status second) := by
  induction first with
  | nil => simp [kleeneAll]
  | cons e rest ih => simp [kleeneAll, ih, Status.and_assoc]

theorem kleeneAll_conjuncts (e : Expr) : kleeneAll status e.conjuncts = e.kleene status := by
  unfold conjuncts
  split <;> simp [kleeneAll, kleene, Status.ofBool]

theorem kleeneAll_flatMap_conjuncts (operands : List Expr) :
    kleeneAll status (operands.flatMap conjuncts) = kleeneAll status operands := by
  induction operands with
  | nil => rfl
  | cons e rest ih => simp [kleeneAll, kleeneAll_append, kleeneAll_conjuncts, ih]

theorem kleeneAll_eq_no_of_mem {operands : List Expr} (member : .literal false ∈ operands) :
    kleeneAll status operands = .no := by
  induction operands with
  | nil => simp at member
  | cons e rest ih =>
      rcases List.mem_cons.mp member with rfl | member
      · simp [kleeneAll, kleene, Status.ofBool]
      · simp [kleeneAll, ih member]

/-- The folding conjunction has the value of the conjunction. -/
theorem kleene_conj (operands : List Expr) :
    (conj operands).kleene status = kleeneAll status operands := by
  have flattened : kleeneAll status (operands.flatMap conjuncts) = kleeneAll status operands :=
    kleeneAll_flatMap_conjuncts operands
  unfold conj
  split
  · rename_i hasFalse
    rcases List.any_eq_true.mp hasFalse with ⟨e, member, isFalse⟩
    rw [isLiteral_eq_true_iff.mp isFalse] at member
    rw [kleeneAll_eq_no_of_mem member]
    rfl
  · rw [← flattened]
    split
    · rename_i none
      simp [none, kleene, kleeneAll, Status.ofBool]
    · rename_i single
      simp [single, kleeneAll]
    · simp [kleene]

/-! ## Negation normal form -/

mutual

/-- The normal form of an expression, or of its negation, has the value of the expression, or of its
negation. -/
theorem kleene_polarised (negated : Bool) (e : Expr) :
    (e.polarised negated).kleene status = (e.kleene status).signed negated := by
  cases e with
  | literal value => rw [polarised, kleene, kleene, Status.signed_ofBool]
  | predicate id => cases negated <;> simp [polarised, kleene]
  | not body => rw [polarised, kleene, Status.signed_neg, kleene_polarised (!negated) body]
  | and operands =>
      cases negated with
      | false =>
          rw [polarised, if_neg Bool.false_ne_true, kleene_conj, kleene, Status.signed_false,
            (kleene_polarisedAll operands).1]
      | true =>
          rw [polarised, if_pos rfl, kleene_disj, kleene, Status.signed_true,
            (kleene_polarisedAll operands).2.1]
  | or operands =>
      cases negated with
      | false =>
          rw [polarised, if_neg Bool.false_ne_true, kleene_disj, kleene, Status.signed_false,
            (kleene_polarisedAll operands).2.2.1]
      | true =>
          rw [polarised, if_pos rfl, kleene_conj, kleene, Status.signed_true,
            (kleene_polarisedAll operands).2.2.2]

/-- The normal forms of a list make up the value of its conjunction or disjunction, and by de
Morgan's laws the negated ones that of the other. -/
theorem kleene_polarisedAll (operands : List Expr) :
    kleeneAll status (polarisedAll false operands) = kleeneAll status operands ∧
      kleeneAny status (polarisedAll true operands) = (kleeneAll status operands).neg ∧
        kleeneAny status (polarisedAll false operands) = kleeneAny status operands ∧
          kleeneAll status (polarisedAll true operands) = (kleeneAny status operands).neg := by
  cases operands with
  | nil => exact ⟨rfl, rfl, rfl, rfl⟩
  | cons e rest =>
      have plain := kleene_polarised false e
      have negated := kleene_polarised true e
      obtain ⟨all, notAll, any, notAny⟩ := kleene_polarisedAll rest
      simp only [polarisedAll, kleeneAll, kleeneAny, plain, negated, all, notAll, any, notAny,
        Status.signed_false, Status.signed_true, Status.neg_and, Status.neg_or, and_self]

end

/-- The negation of an expression has the negated value. -/
theorem kleene_negate (e : Expr) : e.negate.kleene status = (e.kleene status).neg :=
  kleene_polarised true e

end Expr

end Trivalent
