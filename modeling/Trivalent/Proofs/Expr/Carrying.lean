import Trivalent.Proofs.Expr.Reading

/-!
# Readings that carry over

What an expression says under one reading of the statuses it also says under another one if every
predicate and every negated predicate does: Kleene's connectives bring in no other negations.  There
are three such changes of the reading.  A condition that holds pessimistically holds optimistically;
one that holds pessimistically still does when more is known; and one that holds optimistically also
does when less is known.
-/

namespace Trivalent

namespace Status

/-- A condition of status `s` that holds, read in one way, holds with status `s'`, read in another
way, and so does its negation. -/
structure Carries (wildcard wildcard' : Bool) (s s' : Status) : Prop where
  holds : s.reads wildcard = true → s'.reads wildcard' = true
  fails : s.neg.reads wildcard = true → s'.neg.reads wildcard' = true

variable {wildcard wildcard' : Bool} {s t s' t' : Status}

theorem Carries.refl (wildcard : Bool) (s : Status) : s.Carries wildcard wildcard s :=
  ⟨id, id⟩

/-- What holds pessimistically holds optimistically. -/
theorem carries_optimistic (s : Status) : s.Carries false true s := by
  cases s <;> exact ⟨by decide, by decide⟩

/-- What holds pessimistically still does when more is known. -/
theorem Below.carries_false (below : s.Below t) : Carries false false s t := by
  rcases below with rfl | rfl
  · exact ⟨nofun, nofun⟩
  · exact .refl false s

/-- What holds optimistically also does when less is known. -/
theorem Below.carries_true (below : s.Below t) : Carries true true t s := by
  rcases below with rfl | rfl
  · exact ⟨fun _ => rfl, fun _ => rfl⟩
  · exact .refl true s

theorem Carries.neg (carries : Carries wildcard wildcard' s s') :
    Carries wildcard wildcard' s.neg s'.neg := by
  constructor
  · exact carries.fails
  · rw [neg_neg, neg_neg]
    exact carries.holds

theorem Carries.and (left : Carries wildcard wildcard' s s')
    (right : Carries wildcard wildcard' t t') :
    Carries wildcard wildcard' (s.and t) (s'.and t') := by
  constructor
  · simp only [reads_and, Bool.and_eq_true]
    exact And.imp left.holds right.holds
  · simp only [neg_and, reads_or, Bool.or_eq_true]
    exact Or.imp left.fails right.fails

theorem Carries.or (left : Carries wildcard wildcard' s s')
    (right : Carries wildcard wildcard' t t') :
    Carries wildcard wildcard' (s.or t) (s'.or t') := by
  constructor
  · simp only [reads_or, Bool.or_eq_true]
    exact Or.imp left.holds right.holds
  · simp only [neg_or, reads_and, Bool.and_eq_true]
    exact And.imp left.fails right.fails

end Status

namespace Expr

open Status (Carries)

variable {wildcard wildcard' : Bool} {status status' : Nat → Status}

mutual

/-- The value of an expression carries over if those of its predicates do. -/
theorem kleene_carries (e : Expr)
    (each : ∀ id ∈ e.occurrences, Carries wildcard wildcard' (status id) (status' id)) :
    Carries wildcard wildcard' (e.kleene status) (e.kleene status') := by
  cases e with
  | literal value =>
      rw [kleene, kleene]
      cases value with
      | true => exact ⟨fun _ => rfl, nofun⟩
      | false => exact ⟨nofun, fun _ => rfl⟩
  | predicate id => exact each id (by simp [occurrences])
  | not body => exact (kleene_carries body each).neg
  | and operands => exact kleeneAll_carries operands each
  | or operands => exact kleeneAny_carries operands each

theorem kleeneAll_carries (operands : List Expr)
    (each : ∀ id ∈ occurrencesAll operands, Carries wildcard wildcard' (status id) (status' id)) :
    Carries wildcard wildcard' (kleeneAll status operands) (kleeneAll status' operands) := by
  cases operands with
  | nil => exact ⟨fun _ => rfl, nofun⟩
  | cons e rest =>
      rw [occurrencesAll, List.forall_mem_append] at each
      exact (kleene_carries e each.1).and (kleeneAll_carries rest each.2)

theorem kleeneAny_carries (operands : List Expr)
    (each : ∀ id ∈ occurrencesAll operands, Carries wildcard wildcard' (status id) (status' id)) :
    Carries wildcard wildcard' (kleeneAny status operands) (kleeneAny status' operands) := by
  cases operands with
  | nil => exact ⟨nofun, fun _ => rfl⟩
  | cons e rest =>
      rw [occurrencesAll, List.forall_mem_append] at each
      exact (kleene_carries e each.1).or (kleeneAny_carries rest each.2)

end

end Expr

end Trivalent
