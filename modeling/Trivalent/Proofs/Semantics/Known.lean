import Trivalent.Proofs.Semantics.Information

/-!
# Systems without choices

Nothing unknown comes up in a system whose guards and updates are ordinary expressions: every
predicate is known at first, the value of an expression over known predicates is known, and an update
by it allows that value alone.  So it does not matter how unknown predicates are read.
-/

namespace Trivalent

/-- A status is known exactly if it says pessimistically what it says optimistically. -/
theorem Status.carries_pessimistic_iff {s : Status} :
    s.Carries true false s ↔ s ≠ .unknown := by
  constructor
  · rintro carries rfl
    exact absurd (carries.holds rfl) nofun
  · intro known
    cases s with
    | yes => exact ⟨fun _ => rfl, nofun⟩
    | no => exact ⟨nofun, fun _ => rfl⟩
    | unknown => exact absurd rfl known

/-- It does not matter how a known status is read. -/
theorem Status.reads_of_known {s : Status} (known : s ≠ .unknown) (wildcard wildcard' : Bool) :
    s.reads wildcard = s.reads wildcard' := by
  cases s with
  | yes => rfl
  | no => rfl
  | unknown => exact absurd rfl known

/-- An expression over known predicates has a known value. -/
theorem Expr.kleene_ne_unknown {status : Nat → Status} (e : Expr)
    (known : ∀ id ∈ e.occurrences, status id ≠ .unknown) : e.kleene status ≠ .unknown :=
  Status.carries_pessimistic_iff.mp
    (e.kleene_carries fun id occurs => Status.carries_pessimistic_iff.mpr (known id occurs))

namespace Term

/-- An ordinary expression. -/
def IsPlain : Term → Prop
  | .plain _ => True
  | .choice _ _ => False

instance : (term : Term) → Decidable term.IsPlain
  | .plain _ => .isTrue trivial
  | .choice _ _ => .isFalse id

variable {status : Nat → Status} {term : Term}

theorem IsPlain.exists_body (isPlain : term.IsPlain) : ∃ body, term = .plain body := by
  cases term with
  | plain body => exact ⟨body, rfl⟩
  | choice => exact isPlain.elim

/-- An update by an expression of a known value allows that value alone. -/
theorem allows_plain {body : Expr} (known : body.kleene status ≠ .unknown) (wildcard : Bool)
    (after : Status) :
    (plain body).allows wildcard status after = decide (after = body.kleene status) := by
  -- A constant settles the update before anything is evaluated, to its own value.
  by_cases isTrue : body.isLiteral true = true
  · obtain rfl := Expr.isLiteral_eq_true_iff.mp isTrue
    rfl
  by_cases isFalse : body.isLiteral false = true
  · obtain rfl := Expr.isLiteral_eq_true_iff.mp isFalse
    rfl
  · unfold allows choiceAllows
    simp only [asChoice, isTrue, isFalse, Bool.false_and, Bool.false_eq_true, if_false,
      Expr.kleene_negate]
    generalize body.kleene status = value at known
    cases value with
    | yes => cases after <;> rfl
    | no => cases after <;> rfl
    | unknown => exact absurd rfl known

variable {wildcard wildcard' : Bool}

/-- A guard over known predicates holds however unknown ones are read. -/
theorem IsPlain.holds_reading (isPlain : term.IsPlain)
    (known : ∀ id ∈ term.predicates, status id ≠ .unknown) :
    term.holds wildcard status = term.holds wildcard' status := by
  obtain ⟨body, rfl⟩ := isPlain.exists_body
  have value := body.kleene_ne_unknown fun id occurs => known id (mem_predicates_plain.mpr occurs)
  exact Status.reads_of_known value wildcard wildcard'

/-- So does an update, and the status that it allows is known. -/
theorem IsPlain.allows_reading (isPlain : term.IsPlain)
    (known : ∀ id ∈ term.predicates, status id ≠ .unknown) {after : Status}
    (allows : term.allows wildcard status after = true) :
    term.allows wildcard' status after = true ∧ after ≠ .unknown := by
  obtain ⟨body, rfl⟩ := isPlain.exists_body
  have value := body.kleene_ne_unknown fun id occurs => known id (mem_predicates_plain.mpr occurs)
  rw [allows_plain value] at allows ⊢
  exact ⟨allows, of_decide_eq_true allows ▸ value⟩

end Term

/-- The guard and the updates of a transition are ordinary expressions. -/
def Transition.Choiceless (transition : Transition) : Prop :=
  transition.guard.IsPlain ∧ ∀ assignment ∈ transition.assignments, assignment.value.IsPlain

instance (transition : Transition) : Decidable transition.Choiceless :=
  inferInstanceAs (Decidable (_ ∧ _))

namespace System

/-- All guards and updates of a system are ordinary expressions. -/
def Choiceless (system : System) : Prop :=
  ∀ process ∈ system.processes, ∀ transition ∈ process.transitions, transition.Choiceless

instance (system : System) : Decidable system.Choiceless :=
  inferInstanceAs (Decidable (∀ process ∈ _, _))

/-- Every predicate is known in a state. -/
def IsKnown (system : System) (s : State) : Prop :=
  ∀ id ∈ system.predicates.values, s.status id ≠ .unknown

variable {system : System} {wildcard wildcard' : Bool} {p : Nat} {transition : Transition}
  {s t : State}

theorem Has.choiceless (has : system.Has p transition) (choiceless : system.Choiceless) :
    transition.Choiceless := by
  rcases has with ⟨process, found, member⟩
  exact choiceless process (List.mem_of_getElem? found) transition member

/-- At first every predicate is known. -/
theorem IsInitial.isKnown (initial : system.IsInitial s) : system.IsKnown s := by
  intro id member
  obtain ⟨entry, listed, rfl⟩ := List.mem_map.mp member
  rw [initial.status entry listed, initialStatus]
  cases system.initialValue entry.1 <;> exact nofun

section Steps

variable (declared : system.Declared) (choiceless : system.Choiceless)

include declared choiceless

/-- Where every predicate is known a transition is taken however unknown ones are read, and every
predicate is known after it. -/
theorem Takes.of_isKnown (known : system.IsKnown s) (has : system.Has p transition)
    (takes : system.Takes wildcard p transition s t) :
    system.Takes wildcard' p transition s t ∧ system.IsKnown t := by
  have refers := has.refersTo declared
  obtain ⟨guard, updates⟩ := has.choiceless choiceless
  have updated : ∀ assignment ∈ transition.assignments,
      assignment.value.allows wildcard' s.status (t.status assignment.predicate) = true ∧
        t.status assignment.predicate ≠ .unknown := fun assignment member =>
    (updates assignment member).allows_reading
      (fun id occurs => known id (refers.value assignment member id occurs))
      (takes.updates assignment member)
  constructor
  · constructor
    case source => exact takes.source
    case destination => exact takes.destination
    case guard =>
      rw [← takes.guard]
      exact guard.holds_reading fun id occurs => known id (refers.guard id occurs)
    case updates => exact fun assignment member => (updated assignment member).1
    case frame => exact takes.frame
    case idle => exact takes.idle
  · intro id member
    by_cases isAssigned : ∃ assignment ∈ transition.assignments, assignment.predicate = id
    · rcases isAssigned with ⟨assignment, listed, rfl⟩
      exact (updated assignment listed).2
    · rw [takes.frame id member fun assignment listed same => isAssigned ⟨assignment, listed, same⟩]
      exact known id member

theorem Moves.of_isKnown (known : system.IsKnown s) (moves : system.Moves wildcard p s t) :
    system.Moves wildcard' p s t ∧ system.IsKnown t := by
  rcases moves with ⟨process, found, transition, member, takes⟩
  obtain ⟨takesToo, knownToo⟩ := takes.of_isKnown declared choiceless known ⟨process, found, member⟩
  exact ⟨⟨process, found, transition, member, takesToo⟩, knownToo⟩

/-- Along a run every predicate stays known. -/
theorem IsRun.isKnown {n : Nat} {s : Nat → State} (run : system.IsRun wildcard n s) :
    ∀ t ≤ n, system.IsKnown (s t) := by
  intro t
  induction t with
  | zero => exact fun _ => run.initial.isKnown
  | succ t ih =>
      intro before
      obtain ⟨p, moves⟩ := run.moves t before
      have after : system.Moves wildcard p (s t) (s (t + 1)) ∧ system.IsKnown (s (t + 1)) :=
        moves.of_isKnown declared choiceless (ih (Nat.le_of_lt before))
      exact after.2

end Steps

end System

end Trivalent
