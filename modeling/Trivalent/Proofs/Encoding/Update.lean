import Trivalent.Proofs.Encoding.Kleene

/-!
# Updates in three-valued logic

Which statuses an update allows depends on the three-valued values of the two sides of its term:
true if the left side holds, false if the right side does, and unknown if neither is true.  How
unknown predicates are read matters for the known statuses only, so some status is always allowed.
Pessimistically it is the only one unless both sides are true, and an expression gives its own
value.
-/

namespace Trivalent

namespace Status

/-- The status `after` may follow a choice between sides of these values: it is true and the left
side holds, or it is false and the right side holds, or it is unknown and neither side is true. -/
def MayFollow (wildcard : Bool) (left right after : Status) : Prop :=
  (after = .yes ∧ if wildcard then left ≠ .no else left = .yes) ∨
    (after = .no ∧ if wildcard then right ≠ .no else right = .yes) ∨
      after = .unknown ∧ left ≠ .yes ∧ right ≠ .yes

instance (wildcard : Bool) (left right after : Status) :
    Decidable (MayFollow wildcard left right after) :=
  inferInstanceAs (Decidable (_ ∨ _ ∨ _))

variable {wildcard : Bool} {left right after : Status}

/-- A status is allowed by the values of the sides exactly if it may follow them. -/
theorem mayFollow_iff_reads : MayFollow wildcard left right after ↔
    (left.reads wildcard && after = .yes || right.reads wildcard && after = .no ||
      (left.or right).neg.reads true && after = .unknown) = true := by
  cases wildcard <;> cases left <;> cases right <;> cases after <;> decide

/-- Some status may always follow. -/
theorem exists_mayFollow (wildcard : Bool) (left right : Status) :
    ∃ after, MayFollow wildcard left right after := by
  by_cases holds : left = .yes
  · refine ⟨.yes, .inl ⟨rfl, ?_⟩⟩
    rw [holds]
    cases wildcard <;> decide
  by_cases fails : right = .yes
  · refine ⟨.no, .inr (.inl ⟨rfl, ?_⟩)⟩
    rw [fails]
    cases wildcard <;> decide
  · exact ⟨.unknown, .inr (.inr ⟨rfl, holds, fails⟩)⟩

/-- Pessimistically one status may follow, unless both sides are true. -/
theorem mayFollow_false_iff (notBoth : ¬(left = .yes ∧ right = .yes)) :
    MayFollow false left right after ↔
      after = if left = .yes then .yes else if right = .yes then .no else .unknown := by
  revert notBoth
  cases left <;> cases right <;> cases after <;> decide

/-- Pessimistically a condition is followed by its own value. -/
theorem mayFollow_neg_iff {s : Status} : MayFollow false s s.neg after ↔ after = s := by
  cases s <;> cases after <;> decide

end Status

namespace Term

variable {wildcard : Bool} {status : Nat → Status} {left right : Expr} {after : Status}

/-- The constants among the sides of a choice do not change what it allows, but for one case: if its
left side is the constant true, it allows nothing else than true. -/
theorem choiceAllows_iff : choiceAllows wildcard status left right after = true ↔
    Status.MayFollow wildcard (left.kleene status) (right.kleene status) after ∧
      (left = .literal true → after = .yes) := by
  have constant (value : Bool) : (Expr.literal value).kleene status = .ofBool value := by
    rw [Expr.kleene]
  unfold choiceAllows
  split
  · rename_i always
    rw [Expr.isLiteral_eq_true_iff.mp always, constant, decide_eq_true_iff]
    refine ⟨?_, fun allowed => allowed.2 rfl⟩
    rintro rfl
    cases wildcard <;> simp [Status.MayFollow, Status.ofBool]
  rename_i notAlways
  rw [Expr.isLiteral_eq_true_iff] at notAlways
  simp only [notAlways, false_imp_iff, and_true]
  split
  · rename_i never
    rw [Bool.and_eq_true, Expr.isLiteral_eq_true_iff, Expr.isLiteral_eq_true_iff] at never
    rw [never.1, never.2, constant, constant]
    cases wildcard <;> cases after <;> decide
  split
  · rename_i neither
    rw [Bool.and_eq_true, Expr.isLiteral_eq_true_iff, Expr.isLiteral_eq_true_iff] at neither
    rw [neither.1, neither.2, constant]
    cases wildcard <;> cases after <;> decide
  · exact Status.mayFollow_iff_reads.symm

/-- A choice always allows some status. -/
theorem exists_choiceAllows (wildcard : Bool) (status : Nat → Status) (left right : Expr) :
    ∃ after, choiceAllows wildcard status left right after = true := by
  by_cases always : left = .literal true
  · subst always
    exact ⟨.yes, rfl⟩
  · obtain ⟨after, follows⟩ :=
      Status.exists_mayFollow wildcard (left.kleene status) (right.kleene status)
    exact ⟨after, choiceAllows_iff.mpr ⟨follows, fun isTrue => absurd isTrue always⟩⟩

/-- An update always allows some status. -/
theorem exists_allows (wildcard : Bool) (status : Nat → Status) (term : Term) :
    ∃ after, term.allows wildcard status after = true :=
  exists_choiceAllows wildcard status _ _

/-- Pessimistically a choice leaves no freedom, unless both of its sides are true and the left one
is not a constant. -/
theorem existsUnique_choiceAllows_iff :
    (∃! after, choiceAllows false status left right after = true) ↔
      ¬(left.kleene status = .yes ∧ right.kleene status = .yes ∧ left ≠ .literal true) := by
  constructor
  · rintro ⟨after, _, unique⟩ ⟨holds, fails, notAlways⟩
    have free : after = .yes ∧ after = .no := by
      constructor
      · exact (unique .yes (choiceAllows_iff.mpr ⟨by simp [Status.MayFollow, holds],
          fun _ => rfl⟩)).symm
      · exact (unique .no (choiceAllows_iff.mpr ⟨by simp [Status.MayFollow, fails],
          fun isTrue => absurd isTrue notAlways⟩)).symm
    exact nomatch free.1.symm.trans free.2
  · intro notFree
    obtain ⟨after, allowed⟩ := exists_choiceAllows false status left right
    refine ⟨after, allowed, fun other allowedToo => ?_⟩
    obtain ⟨follows, isYes⟩ := choiceAllows_iff.mp allowed
    obtain ⟨followsToo, isYesToo⟩ := choiceAllows_iff.mp allowedToo
    by_cases always : left = .literal true
    · rw [isYes always, isYesToo always]
    · have notBoth : ¬(left.kleene status = .yes ∧ right.kleene status = .yes) :=
        fun both => notFree ⟨both.1, both.2, always⟩
      rw [(Status.mayFollow_false_iff notBoth).mp follows,
        (Status.mayFollow_false_iff notBoth).mp followsToo]

/-- Pessimistically an update by an expression allows the value of the expression alone. -/
theorem allows_plain_false_iff {body : Expr} :
    (plain body).allows false status after = true ↔ after = body.kleene status := by
  rw [allows, asChoice, choiceAllows_iff, Expr.kleene_negate, Status.mayFollow_neg_iff,
    and_iff_left_iff_imp]
  rintro rfl rfl
  rw [Expr.kleene]
  rfl

end Term

/-- The valuation in which a predicate has a status at the step that a template enters. -/
def Valuation.becomes (v : Valuation) (predicate : Nat) (status : Status) : Valuation := fun a =>
  if a = .predicate predicate .unknown Encoding.next false then status = .unknown
  else if a = .predicate predicate .truth Encoding.next false then status = .yes
  else v a

namespace Encoding

variable (v : Valuation) (predicate : Nat)

@[simp]
theorem decodeStatus_becomes (status : Status) :
    decodeStatus (v.becomes predicate status) predicate next = status := by
  cases status <;> simp [decodeStatus, Valuation.becomes]

@[simp]
theorem statuses_becomes (status : Status) :
    statuses (v.becomes predicate status) current = statuses v current := by
  have kept (id : Nat) (bit : PredicateBit) :
      v.becomes predicate status (.predicate id bit current false) =
        v (.predicate id bit current false) := by
    simp [Valuation.becomes, current, next]
  funext id
  simp only [statuses, decodeStatus_eq_statusOfBits, kept]

/-- What a choice says of a status that its predicate is given. -/
theorem eval_updateChoice_becomes (left right : Expr) (status : Status) :
    (updateChoice left right predicate).eval (v.becomes predicate status) =
      Term.choiceAllows (v .wildcard) (statuses v current) left right status := by
  rw [eval_updateChoice, decodeStatus_becomes, statuses_becomes]
  rfl

/-- The formula of an update says of three-valued values what the update means.  The status that a
predicate takes may follow the values of the sides, and it is true if the left side is the constant
true.  So some status is always allowed, whatever else the valuation says; pessimistically it is the
only one, unless both sides are true and the left one is not a constant, and an update by an
expression gives the predicate the value of the expression. -/
theorem eval_updateChoice_iff_kleene :
    (∀ left right, (updateChoice left right predicate).eval v = true ↔
        Status.MayFollow (v .wildcard) (v.kleeneAt current left) (v.kleeneAt current right)
            (decodeStatus v predicate next) ∧
          (left = .literal true → decodeStatus v predicate next = .yes)) ∧
      (∀ left right, ∃ status,
        (updateChoice left right predicate).eval (v.becomes predicate status) = true) ∧
        (v .wildcard = false →
          (∀ left right, (∃! status,
              (updateChoice left right predicate).eval (v.becomes predicate status) = true) ↔
            ¬(v.kleeneAt current left = .yes ∧ v.kleeneAt current right = .yes ∧
              left ≠ .literal true)) ∧
            ∀ body, (update ⟨predicate, .plain body⟩).eval v = true ↔
              decodeStatus v predicate next = v.kleeneAt current body) := by
  simp only [eval_updateChoice_becomes]
  refine ⟨fun left right => ?_, Term.exists_choiceAllows _ _, fun pessimistic => ?_⟩
  · rw [eval_updateChoice]
    exact Term.choiceAllows_iff
  rw [pessimistic]
  refine ⟨fun left right => Term.existsUnique_choiceAllows_iff, fun body => ?_⟩
  rw [eval_update, pessimistic]
  exact Term.allows_plain_false_iff

/-- Predicate 0 is true and predicate 1 unknown.  A choice between the two settles predicate 2, and
one between predicate 0 and itself does not.  Copying predicate 1 leaves predicate 2 unknown,
whatever the bit for its value is. -/
theorem eval_updateChoice_iff_kleene_of_unknown :
    let v : Valuation := fun a => a ∈ [Atom.predicate 0 .truth current false,
      .predicate 1 .unknown current false, .predicate 2 .unknown next false,
      .predicate 2 .truth next false]
    v .wildcard = false ∧
      (∃! status, (updateChoice (.predicate 0) (.predicate 1) 2).eval (v.becomes 2 status) = true) ∧
        (¬∃! status, (updateChoice (.predicate 0) (.predicate 0) 2).eval (v.becomes 2 status) = true) ∧
          (update ⟨2, .plain (.predicate 1)⟩).eval v = true := by
  intro v
  have pessimistic : v .wildcard = false := by decide
  have isTrue : v.kleeneAt current (.predicate 0) = .yes := by decide
  have isUnknown : v.kleeneAt current (.predicate 1) = .unknown := by decide
  obtain ⟨unique, copies⟩ := (eval_updateChoice_iff_kleene v 2).2.2 pessimistic
  refine ⟨pessimistic, (unique _ _).mpr ?_, fun settled => ?_, (copies _).mpr ?_⟩
  · rintro ⟨_, isTrueToo, _⟩
    exact nomatch isUnknown.symm.trans isTrueToo
  · exact (unique _ _).mp settled ⟨isTrue, isTrue, nofun⟩
  · rw [isUnknown]
    decide

end Encoding

end Trivalent
