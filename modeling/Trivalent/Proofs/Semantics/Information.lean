import Mathlib.Data.List.Nodup
import Trivalent.Proofs.Semantics.Carrying

/-!
# States ordered by information

A state is below another one if both are at the same locations and the first knows nothing else of
the predicates than the second.  A transition that is taken optimistically from the upper state is
matched from the lower one, and a transition that is taken pessimistically from the lower state is
matched from the upper one: information is a simulation in both directions.  So whole paths are
matched, transition by transition.
-/

namespace Trivalent

/-- No predicate is assigned twice. -/
def Transition.AssignsOnce (transition : Transition) : Prop :=
  (transition.assignments.map (·.predicate)).Nodup

/-- Two assignments of the same predicate are one. -/
theorem Transition.AssignsOnce.eq_of_predicate_eq {transition : Transition}
    (once : transition.AssignsOnce) {first second : Assignment}
    (member : first ∈ transition.assignments) (memberToo : second ∈ transition.assignments)
    (same : first.predicate = second.predicate) : first = second :=
  List.inj_on_of_nodup_map once member memberToo same

/-- A status that is chosen for every assignment is one for every predicate. -/
theorem Transition.AssignsOnce.exists_status {transition : Transition}
    (once : transition.AssignsOnce) {P : Assignment → Status → Prop}
    (each : ∀ assignment ∈ transition.assignments, ∃ after, P assignment after) :
    ∃ after : Nat → Status, ∀ assignment ∈ transition.assignments,
      P assignment (after assignment.predicate) := by
  have some : ∀ id, ∃ after, ∀ assignment ∈ transition.assignments,
      assignment.predicate = id → P assignment after := by
    intro id
    by_cases isAssigned : ∃ assignment ∈ transition.assignments, assignment.predicate = id
    · rcases isAssigned with ⟨assignment, member, rfl⟩
      obtain ⟨after, holds⟩ := each assignment member
      refine ⟨after, fun other memberToo same => ?_⟩
      obtain rfl := once.eq_of_predicate_eq memberToo member same
      exact holds
    · exact ⟨.unknown, fun assignment member same => absurd ⟨assignment, member, same⟩ isAssigned⟩
  choose after holds using some
  exact ⟨after, fun assignment member => holds assignment.predicate assignment member rfl⟩

/-- The state in which what a transition assigns has new statuses and the rest has the old ones. -/
def Transition.outcome (transition : Transition) (before : State) (location : Nat → Nat)
    (after : Nat → Status) : State where
  location := location
  status id :=
    if id ∈ transition.assignments.map (·.predicate) then after id else before.status id

theorem Transition.outcome_assigned (transition : Transition) {before : State}
    {location : Nat → Nat} {after : Nat → Status} {assignment : Assignment}
    (member : assignment ∈ transition.assignments) :
    (transition.outcome before location after).status assignment.predicate =
      after assignment.predicate :=
  if_pos (List.mem_map.mpr ⟨assignment, member, rfl⟩)

theorem Transition.outcome_unassigned (transition : Transition) {before : State}
    {location : Nat → Nat} {after : Nat → Status} {id : Nat}
    (unassigned : ∀ assignment ∈ transition.assignments, assignment.predicate ≠ id) :
    (transition.outcome before location after).status id = before.status id := by
  apply if_neg
  rw [List.mem_map]
  rintro ⟨assignment, member, same⟩
  exact unassigned assignment member same

/-- A sequence can be continued for ever if each entry can be continued by one. -/
theorem exists_sequence {α : Type} {P : Nat → α → Prop} {Q : Nat → α → α → Prop} {first : α}
    (begins : P 0 first) (goesOn : ∀ t a, P t a → ∃ b, Q t a b ∧ P (t + 1) b) :
    ∃ sequence : Nat → α, sequence 0 = first ∧
      ∀ t, P t (sequence t) ∧ Q t (sequence t) (sequence (t + 1)) := by
  have : Nonempty α := ⟨first⟩
  choose! next step using goesOn
  let sequence : Nat → α := Nat.rec first next
  have holds : ∀ t, P t (sequence t) := by
    intro t
    induction t with
    | zero => exact begins
    | succ t ih => exact (step t _ ih).2
  exact ⟨sequence, rfl, fun t => ⟨holds t, (step t _ (holds t)).1⟩⟩

namespace System

/-- No transition assigns a predicate twice. -/
def AssignsOnce (system : System) : Prop :=
  ∀ process ∈ system.processes, ∀ transition ∈ process.transitions, transition.AssignsOnce

/-- Two states are at the same locations, and the first knows nothing else than the second. -/
structure Below (system : System) (s s' : State) : Prop where
  location : ∀ p < system.processes.length, s.location p = s'.location p
  status : ∀ id ∈ system.predicates.values, (s.status id).Below (s'.status id)

/-- A transition of process `p`. -/
def Has (system : System) (p : Nat) (transition : Transition) : Prop :=
  ∃ process, system.processes[p]? = some process ∧ transition ∈ process.transitions

/-- Each of the first `n` steps of a sequence of states is a transition of a process: those that are
taken, step by step. -/
def IsPath (system : System) (wildcard : Bool) (n : Nat) (taken : Nat → Nat × Transition)
    (s : Nat → State) : Prop :=
  ∀ t < n, system.Has (taken t).1 (taken t).2 ∧
    system.Takes wildcard (taken t).1 (taken t).2 (s t) (s (t + 1))

variable {system : System} {wildcard : Bool} {p : Nat} {transition : Transition}
  {s t s' t' : State}

theorem Has.inside (has : system.Has p transition) : p < system.processes.length := by
  rcases has with ⟨process, found, _⟩
  exact (List.getElem?_eq_some_iff.mp found).1

theorem Has.refersTo (has : system.Has p transition) (declared : system.Declared) :
    transition.RefersTo system.predicates.values := by
  rcases has with ⟨process, found, member⟩
  exact declared process (List.mem_of_getElem? found) transition member

theorem Has.assignsOnce (has : system.Has p transition) (once : system.AssignsOnce) :
    transition.AssignsOnce := by
  rcases has with ⟨process, found, member⟩
  exact once process (List.mem_of_getElem? found) transition member

/-- A process that moves pessimistically moves optimistically. -/
theorem Moves.optimistic (moves : system.Moves false p s t) (declared : system.Declared) :
    system.Moves true p s t := by
  rcases moves with ⟨process, found, transition, member, takes⟩
  have has : system.Has p transition := ⟨process, found, member⟩
  exact ⟨process, found, transition, member, takes.optimistic (has.refersTo declared) has.inside⟩

/-- A pessimistic run is an optimistic one. -/
theorem IsRun.optimistic {n : Nat} {s : Nat → State} (run : system.IsRun false n s)
    (declared : system.Declared) : system.IsRun true n s :=
  ⟨run.initial, fun t before => (run.moves t before).imp fun _ moves => moves.optimistic declared⟩

/-! ## States -/

namespace Below

variable (below : system.Below s s')

include below

/-- What is possible in a state is possible in the states below it. -/
theorem carries : system.Carries true true s' s where
  location := below.location
  reads := id
  status id member := (below.status id member).carries_true
  possibly id member := (below.status id member).carries_true

/-- The same states have the same states above them. -/
theorem of_same (same : system.SameState s t) : system.Below t s' where
  location p inside := (same.location p inside).symm.trans (below.location p inside)
  status id member := same.status id member ▸ below.status id member

/-- The same states have the same states below them. -/
theorem to_same (same : system.SameState s' t') : system.Below s t' where
  location p inside := (below.location p inside).trans (same.location p inside)
  status id member := same.status id member ▸ below.status id member

end Below

/-! ## Transitions -/

/-- States stay ordered if the statuses that are assigned are, and the others are left alone. -/
theorem Below.after (below : system.Below s s')
    (location : ∀ q < system.processes.length, t.location q = t'.location q)
    (assigned : ∀ assignment ∈ transition.assignments,
      (t.status assignment.predicate).Below (t'.status assignment.predicate))
    (frame : ∀ id ∈ system.predicates.values,
      (∀ assignment ∈ transition.assignments, assignment.predicate ≠ id) →
        t.status id = s.status id)
    (frameToo : ∀ id ∈ system.predicates.values,
      (∀ assignment ∈ transition.assignments, assignment.predicate ≠ id) →
        t'.status id = s'.status id) : system.Below t t' := by
  constructor
  · exact location
  · intro id member
    by_cases isAssigned : ∃ assignment ∈ transition.assignments, assignment.predicate = id
    · rcases isAssigned with ⟨assignment, listed, rfl⟩
      exact assigned assignment listed
    · have unassigned : ∀ assignment ∈ transition.assignments, assignment.predicate ≠ id :=
        fun assignment listed same => isAssigned ⟨assignment, listed, same⟩
      rw [frame id member unassigned, frameToo id member unassigned]
      exact below.status id member

/-- An optimistic transition is matched from every state below. -/
theorem exists_takes_below (refers : transition.RefersTo system.predicates.values)
    (inside : p < system.processes.length) (below : system.Below s s')
    (takes : system.Takes true p transition s' t') :
    ∃ t, system.Takes true p transition s t ∧ system.Below t t' := by
  -- What is assigned takes the same status as above, and the rest stays as it is below.
  let t := transition.outcome s t'.location t'.status
  have assigned : ∀ assignment ∈ transition.assignments,
      t.status assignment.predicate = t'.status assignment.predicate :=
    fun _ => transition.outcome_assigned
  have frame : ∀ id ∈ system.predicates.values,
      (∀ assignment ∈ transition.assignments, assignment.predicate ≠ id) →
        t.status id = s.status id := fun _ _ => transition.outcome_unassigned
  use t
  constructor
  · exact takes.of_carries refers inside below.carries (fun _ _ => rfl) assigned frame
  · exact below.after (fun _ _ => rfl)
      (fun assignment member => .inr (assigned assignment member)) frame takes.frame

/-- The statuses that a pessimistic transition assigns have ones above them that it assigns when more
is known. -/
theorem exists_assigned_above (refers : transition.RefersTo system.predicates.values)
    (once : transition.AssignsOnce) (below : system.Below s s')
    (takes : system.Takes false p transition s t) :
    ∃ after : Nat → Status, ∀ assignment ∈ transition.assignments,
      assignment.value.allows false s'.status (after assignment.predicate) = true ∧
        (t.status assignment.predicate).Below (after assignment.predicate) := by
  refine once.exists_status (P := fun assignment after =>
    assignment.value.allows false s'.status after = true ∧
      (t.status assignment.predicate).Below after) fun assignment member => ?_
  have known : ∀ id ∈ assignment.value.predicates, (s.status id).Below (s'.status id) :=
    fun id occurs => below.status id (refers.value assignment member id occurs)
  exact Term.exists_allows_of_below known (takes.updates assignment member)

/-- A pessimistic transition is matched from every state above, if it assigns no predicate twice. -/
theorem exists_takes_above (refers : transition.RefersTo system.predicates.values)
    (inside : p < system.processes.length) (once : transition.AssignsOnce)
    (below : system.Below s s') (takes : system.Takes false p transition s t) :
    ∃ t', system.Takes false p transition s' t' ∧ system.Below t t' := by
  obtain ⟨after, allows⟩ := exists_assigned_above refers once below takes
  let t' := transition.outcome s' t.location after
  have assigned : ∀ assignment ∈ transition.assignments,
      t'.status assignment.predicate = after assignment.predicate :=
    fun _ => transition.outcome_assigned
  have frame : ∀ id ∈ system.predicates.values,
      (∀ assignment ∈ transition.assignments, assignment.predicate ≠ id) →
        t'.status id = s'.status id := fun _ _ => transition.outcome_unassigned
  use t'
  constructor
  · constructor
    case source => rw [← below.location p inside, takes.source]
    case destination => exact takes.destination
    case guard =>
      exact Term.holds_of_carries id
        (fun id member => (below.status id (refers.guard id member)).carries_false) takes.guard
    case updates =>
      intro assignment member
      rw [assigned assignment member]
      exact (allows assignment member).1
    case frame => exact frame
    case idle =>
      intro q insideToo other
      rw [← below.location q insideToo]
      exact takes.idle q insideToo other
  · have known : ∀ assignment ∈ transition.assignments,
        (t.status assignment.predicate).Below (t'.status assignment.predicate) := by
      intro assignment member
      rw [assigned assignment member]
      exact (allows assignment member).2
    exact below.after (fun _ _ => rfl) known takes.frame frame

/-! ## Simulations -/

/-- A relation by which the transitions from a state are matched from the related ones.  Related
states are at the same locations, and the relation does not tell the same states apart. -/
structure IsSimulation (system : System) (wildcard : Bool) (R : State → State → Prop) : Prop where
  location : ∀ s u, R s u → ∀ p < system.processes.length, s.location p = u.location p
  of_same : ∀ s t u, system.SameState s t → R s u → R t u
  step : ∀ p transition s t u, system.Has p transition → system.Takes wildcard p transition s t →
    R s u → ∃ v, system.Takes wildcard p transition u v ∧ R t v

/-- States that know less simulate optimistically. -/
theorem isSimulation_below (declared : system.Declared) :
    system.IsSimulation true fun s' s => system.Below s s' where
  location _ _ below p inside := (below.location p inside).symm
  of_same _ _ _ same below := below.to_same same
  step _ _ _ _ _ has takes below :=
    exists_takes_below (has.refersTo declared) has.inside below takes

/-- States that know more simulate pessimistically, if no predicate is assigned twice. -/
theorem isSimulation_above (declared : system.Declared) (once : system.AssignsOnce) :
    system.IsSimulation false system.Below where
  location _ _ below := below.location
  of_same _ _ _ same below := below.of_same same
  step _ _ _ _ _ has takes below :=
    exists_takes_above (has.refersTo declared) has.inside (has.assignsOnce once) below takes

/-- A path is matched from a related state, transition by transition. -/
theorem IsSimulation.exists_path {R : State → State → Prop}
    (simulation : system.IsSimulation wildcard R) {n : Nat} {taken : Nat → Nat × Transition}
    {s : Nat → State} (path : system.IsPath wildcard n taken s) {first : State}
    (related : R (s 0) first) :
    ∃ u : Nat → State, u 0 = first ∧ system.IsPath wildcard n taken u ∧ ∀ t ≤ n, R (s t) (u t) := by
  obtain ⟨u, begins, goesOn⟩ := exists_sequence
    (P := fun t state => t ≤ n → R (s t) state)
    (Q := fun t state state' =>
      t < n → system.Takes wildcard (taken t).1 (taken t).2 state state')
    (fun _ => related) fun t state isRelated => by
      by_cases before : t < n
      · obtain ⟨has, takes⟩ := path t before
        obtain ⟨state', takesToo, relatedToo⟩ :=
          simulation.step _ _ _ _ _ has takes (isRelated (Nat.le_of_lt before))
        exact ⟨state', fun _ => takesToo, fun _ => relatedToo⟩
      · exact ⟨state, fun inside => absurd inside before, fun inside => absurd inside before⟩
  exact ⟨u, begins, fun t before => ⟨(path t before).1, (goesOn t).2 before⟩,
    fun t within => (goesOn t).1 within⟩

end System

end Trivalent
