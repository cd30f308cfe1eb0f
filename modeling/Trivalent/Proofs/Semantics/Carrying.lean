import Trivalent.Proofs.Expr.Carrying
import Trivalent.Proofs.Semantics.Run
import Trivalent.Proofs.System.Declared

/-!
# Transitions that carry over

A transition that is taken from one state under one reading of unknown predicates is taken from
another state under another reading if the statuses of the predicates carry over from the one to the
other.  So a transition that is taken pessimistically is taken optimistically, and states that are
the same have the same transitions.
-/

namespace Trivalent

namespace Term

open Status (Carries)

variable {wildcard wildcard' : Bool} {status status' : Nat → Status} {term : Term}

theorem mem_predicates_choice {left right : Expr} {id : Nat} :
    id ∈ (Term.choice left right).predicates ↔ id ∈ left.occurrences ∨ id ∈ right.occurrences := by
  rw [predicates, mem_ascending, List.mem_append]

theorem mem_predicates_plain {body : Expr} {id : Nat} :
    id ∈ (Term.plain body).predicates ↔ id ∈ body.occurrences := by
  rw [predicates, Expr.predicates, mem_ascending]

/-- The values of both sides of a term carry over if those of its predicates do. -/
theorem asChoice_carries
    (each : ∀ id ∈ term.predicates, Carries wildcard wildcard' (status id) (status' id)) :
    Carries wildcard wildcard' (term.asChoice.1.kleene status) (term.asChoice.1.kleene status') ∧
      Carries wildcard wildcard' (term.asChoice.2.kleene status)
        (term.asChoice.2.kleene status') := by
  cases term with
  | plain body =>
      have value := body.kleene_carries fun id occurs => each id (mem_predicates_plain.mpr occurs)
      refine ⟨value, ?_⟩
      rw [asChoice, Expr.kleene_negate, Expr.kleene_negate]
      exact value.neg
  | choice left right =>
      constructor
      · exact left.kleene_carries fun id occurs => each id (mem_predicates_choice.mpr (.inl occurs))
      · exact right.kleene_carries fun id occurs => each id (mem_predicates_choice.mpr (.inr occurs))

/-- A guard that holds still does when the statuses of its predicates carry over. -/
theorem holds_of_carries (reads : wildcard = true → wildcard' = true)
    (each : ∀ id ∈ term.predicates, Carries wildcard wildcard' (status id) (status' id))
    (holds : term.holds wildcard status = true) : term.holds wildcard' status' = true := by
  obtain ⟨left, right⟩ := asChoice_carries each
  cases term with
  | plain body => exact left.holds holds
  | choice l r =>
      simp only [Term.holds] at holds ⊢
      dsimp only [asChoice] at left right
      split at holds
      · rename_i isTrue
        rw [if_pos isTrue]
      rename_i notTrue
      rw [if_neg notTrue]
      split at holds
      · contradiction
      rename_i notFails
      rw [if_neg notFails]
      split at holds
      · rename_i neither
        rw [if_pos neither]
        exact reads holds
      · rename_i some
        rw [if_neg some]
        simp only [Bool.and_eq_true, Bool.or_eq_true] at holds ⊢
        exact ⟨holds.1.imp left.holds right.fails,
          holds.2.imp (Or.imp left.holds right.holds) reads⟩

/-- An update allows a status whatever the predicates are if the constants that stand in its term
settle it.  Otherwise it asks what its sides say. -/
theorem allows_cases (term : Term) :
    (∃ settled : Status, ∀ wildcard status after,
      term.allows wildcard status after = decide (after = settled)) ∨
    ∀ wildcard status after, term.allows wildcard status after =
      ((term.asChoice.1.kleene status).reads wildcard && after = .yes ||
        (term.asChoice.2.kleene status).reads wildcard && after = .no ||
          ((term.asChoice.1.kleene status).or (term.asChoice.2.kleene status)).neg.reads true &&
            after = .unknown) := by
  unfold Term.allows choiceAllows
  split_ifs
  · exact .inl ⟨.yes, fun _ _ _ => rfl⟩
  · exact .inl ⟨.no, fun _ _ _ => rfl⟩
  · exact .inl ⟨.unknown, fun _ _ _ => rfl⟩
  · exact .inr fun _ _ _ => rfl

/-- A status that an update allows is still allowed when the statuses of its predicates carry over
under the reading of the update and under the optimistic one. -/
theorem allows_of_carries {after : Status}
    (each : ∀ id ∈ term.predicates, Carries wildcard wildcard' (status id) (status' id))
    (possibly : ∀ id ∈ term.predicates, Carries true true (status id) (status' id))
    (allows : term.allows wildcard status after = true) :
    term.allows wildcard' status' after = true := by
  obtain ⟨left, right⟩ := asChoice_carries each
  obtain ⟨mayHold, mayFail⟩ := asChoice_carries possibly
  rcases term.allows_cases with ⟨settled, constant⟩ | sides
  · rw [constant] at allows ⊢
    exact allows
  · rw [sides] at allows ⊢
    simp only [Bool.or_eq_true, Bool.and_eq_true] at allows ⊢
    exact allows.imp (Or.imp (And.imp_left left.holds) (And.imp_left right.holds))
      (And.imp_left (mayHold.or mayFail).fails)

/-- The unknown is a status of a choice whenever neither side holds for certain. -/
theorem reads_neg_or (s t : Status) :
    (s.or t).neg.reads true = (!s.reads false && !t.reads false) := by
  cases s <;> cases t <;> rfl

/-- When more is known, a pessimistic update goes on to allow a status that is known where the former
one was, or some status where the former one was unknown. -/
theorem exists_allows_of_below {after : Status}
    (each : ∀ id ∈ term.predicates, (status id).Below (status' id))
    (allows : term.allows false status after = true) :
    ∃ after', term.allows false status' after' = true ∧ after.Below after' := by
  obtain ⟨left, right⟩ := asChoice_carries fun id member => (each id member).carries_false
  rcases term.allows_cases with ⟨settled, constant⟩ | sides
  · rw [constant] at allows
    exact ⟨after, by rw [constant, allows], .inr rfl⟩
  simp only [sides, Bool.or_eq_true, Bool.and_eq_true, decide_eq_true_eq] at allows ⊢
  rcases allows with (⟨holds, rfl⟩ | ⟨holds, rfl⟩) | ⟨_, rfl⟩
  · exact ⟨.yes, .inl (.inl ⟨left.holds holds, rfl⟩), .inr rfl⟩
  · exact ⟨.no, .inl (.inr ⟨right.holds holds, rfl⟩), .inr rfl⟩
  -- What was unknown may be settled by what is known now, or else stays unknown.
  · by_cases nowHolds : (term.asChoice.1.kleene status').reads false = true
    · exact ⟨.yes, .inl (.inl ⟨nowHolds, rfl⟩), .inl rfl⟩
    by_cases nowFails : (term.asChoice.2.kleene status').reads false = true
    · exact ⟨.no, .inl (.inr ⟨nowFails, rfl⟩), .inl rfl⟩
    · refine ⟨.unknown, .inr ⟨?_, rfl⟩, .inl rfl⟩
      rw [reads_neg_or]
      simp [nowHolds, nowFails]

end Term

namespace System

variable {system : System} {wildcard wildcard' : Bool} {p : Nat} {transition : Transition}
  {s t s' t' : State}

/-- What holds of state `s` under one reading of unknown predicates holds of state `s'` under another
reading, and what is possible in `s` is possible in `s'`. -/
structure Carries (system : System) (wildcard wildcard' : Bool) (s s' : State) : Prop where
  location : ∀ p < system.processes.length, s'.location p = s.location p
  reads : wildcard = true → wildcard' = true
  status : ∀ id ∈ system.predicates.values,
    Status.Carries wildcard wildcard' (s.status id) (s'.status id)
  possibly : ∀ id ∈ system.predicates.values, Status.Carries true true (s.status id) (s'.status id)

/-- What holds pessimistically of a state holds optimistically of it. -/
theorem carries_optimistic (system : System) (s : State) : system.Carries false true s s where
  location _ _ := rfl
  reads _ := rfl
  status _ _ := Status.carries_optimistic _
  possibly _ _ := .refl true _

theorem SameState.symm (same : system.SameState s t) : system.SameState t s where
  location p inside := (same.location p inside).symm
  status id member := (same.status id member).symm

theorem SameState.carries (same : system.SameState s s') (wildcard : Bool) :
    system.Carries wildcard wildcard s s' where
  location p inside := (same.location p inside).symm
  reads := id
  status id member := same.status id member ▸ .refl wildcard _
  possibly id member := same.status id member ▸ .refl true _

/-- A transition is still taken from a state to which its own state carries over, if it leads to the
same locations, to the same statuses of what it assigns, and leaves the rest alone. -/
theorem Takes.of_carries (takes : system.Takes wildcard p transition s t)
    (refers : transition.RefersTo system.predicates.values) (inside : p < system.processes.length)
    (before : system.Carries wildcard wildcard' s s')
    (after : ∀ q < system.processes.length, t'.location q = t.location q)
    (assigned : ∀ assignment ∈ transition.assignments,
      t'.status assignment.predicate = t.status assignment.predicate)
    (frame : ∀ id ∈ system.predicates.values,
      (∀ assignment ∈ transition.assignments, assignment.predicate ≠ id) →
        t'.status id = s'.status id) :
    system.Takes wildcard' p transition s' t' where
  source := by rw [before.location p inside, takes.source]
  destination := by rw [after p inside, takes.destination]
  guard := Term.holds_of_carries before.reads
    (fun id member => before.status id (refers.guard id member)) takes.guard
  updates assignment member := by
    rw [assigned assignment member]
    exact Term.allows_of_carries
      (fun id occurs => before.status id (refers.value assignment member id occurs))
      (fun id occurs => before.possibly id (refers.value assignment member id occurs))
      (takes.updates assignment member)
  frame := frame
  idle q insideToo other := by
    rw [after q insideToo, before.location q insideToo, takes.idle q insideToo other]

/-- A transition that is taken pessimistically is taken optimistically. -/
theorem Takes.optimistic (takes : system.Takes false p transition s t)
    (refers : transition.RefersTo system.predicates.values)
    (inside : p < system.processes.length) : system.Takes true p transition s t :=
  takes.of_carries refers inside (system.carries_optimistic s) (fun _ _ => rfl) (fun _ _ => rfl)
    takes.frame

/-- The same states have the same transitions. -/
theorem Takes.of_same (takes : system.Takes wildcard p transition s t)
    (refers : transition.RefersTo system.predicates.values) (inside : p < system.processes.length)
    (before : system.SameState s s') (after : system.SameState t t') :
    system.Takes wildcard p transition s' t' := by
  apply takes.of_carries refers inside (before.carries wildcard)
  · exact fun q insideToo => (after.location q insideToo).symm
  · exact fun assignment member =>
      (after.status _ (refers.assigned assignment member)).symm
  · intro id member unassigned
    rw [← after.status id member, ← before.status id member, takes.frame id member unassigned]

end System

end Trivalent
