import Mathlib.Tactic.Common
import Trivalent.Configuration
import Trivalent.Proofs.Semantics.Term

/-!
# Runs of a system

The transition system that a system describes.  A state tells where every process is and which
status every predicate has; in a step one process takes one of its transitions, and what the
transition does not touch stays as it is.  A violation is a run that ends at the target, or one that
comes back to an earlier state without having met the target since.
-/

namespace Trivalent

/-- Where the processes are and which statuses the predicates have. -/
structure State where
  /-- The location of a process. -/
  location : Nat → Nat
  /-- The status of a predicate. -/
  status : Nat → Status

/-- Two states agree as far as a system of `count` processes can tell. -/
structure State.Agrees (count : Nat) (s t : State) : Prop where
  location : ∀ p < count, s.location p = t.location p
  status : s.status = t.status

theorem State.Agrees.symm {count : Nat} {s t : State} (agree : s.Agrees count t) :
    t.Agrees count s :=
  ⟨fun p inside => (agree.location p inside).symm, agree.status.symm⟩

/-- The processes under test are at the target. -/
def Configuration.Meets (configuration : Configuration) (s : State) : Prop :=
  match configuration.combinator with
  | .all => ∀ p ∈ configuration.processes, s.location p = configuration.location
  | .any => ∃ p ∈ configuration.processes, s.location p = configuration.location

/-- Whether the target is met is up to the locations of the processes under test. -/
theorem Configuration.meets_iff {configuration : Configuration} {s t : State}
    (same : ∀ p ∈ configuration.processes, s.location p = t.location p) :
    configuration.Meets s ↔ configuration.Meets t := by
  unfold Meets
  split
  · exact forall₂_congr fun p member => by rw [same p member]
  · exact exists_congr fun p => and_congr_right fun member => by rw [same p member]

namespace System

/-- Every process is at location 0 and every predicate has its initial status. -/
structure IsInitial (system : System) (s : State) : Prop where
  location : ∀ p < system.processes.length, s.location p = 0
  status : ∀ entry ∈ system.predicates.entries, s.status entry.2 = system.initialStatus entry.1

/-- Process `p` takes a transition, which leads from one state to another one. -/
structure Takes (system : System) (wildcard : Bool) (p : Nat) (transition : Transition)
    (s t : State) : Prop where
  source : s.location p = transition.source
  destination : t.location p = transition.destination
  guard : transition.guard.holds wildcard s.status = true
  updates : ∀ assignment ∈ transition.assignments,
    assignment.value.allows wildcard s.status (t.status assignment.predicate) = true
  frame : ∀ id ∈ system.predicates.values,
    (∀ assignment ∈ transition.assignments, assignment.predicate ≠ id) → t.status id = s.status id
  idle : ∀ q < system.processes.length, q ≠ p → t.location q = s.location q

/-- Process `p` takes one of its transitions. -/
def Moves (system : System) (wildcard : Bool) (p : Nat) (s t : State) : Prop :=
  ∃ process, system.processes[p]? = some process ∧
    ∃ transition ∈ process.transitions, system.Takes wildcard p transition s t

/-- The first `n` steps of a sequence of states are a run from the initial state. -/
structure IsRun (system : System) (wildcard : Bool) (n : Nat) (s : Nat → State) : Prop where
  initial : system.IsInitial (s 0)
  moves : ∀ t < n, ∃ p, system.Moves wildcard p (s t) (s (t + 1))

/-- Two states are the same: all processes are at the same locations and all predicates have the
same statuses. -/
structure SameState (system : System) (s t : State) : Prop where
  location : ∀ p < system.processes.length, s.location p = t.location p
  status : ∀ id ∈ system.predicates.values, s.status id = t.status id

/-- A run of `n` steps that ends in the state of step `r`.  From there on it did not meet the
target, and every process moved if it has to be fair. -/
structure IsLasso (system : System) (configuration : Configuration) (wildcard : Bool) (n r : Nat)
    (s : Nat → State) (mover : Nat → Nat) : Prop where
  initial : system.IsInitial (s 0)
  moves : ∀ t < n, system.Moves wildcard (mover t) (s t) (s (t + 1))
  start : r < n
  closes : system.SameState (s r) (s n)
  avoids : ∀ t, r ≤ t → t < n → ¬configuration.Meets (s t)
  fair : configuration.fairness = true →
    ∀ p < system.processes.length, ∃ t, r ≤ t ∧ t < n ∧ mover t = p

/-- A run of `n` steps violates the property. -/
def Violates (system : System) (configuration : Configuration) (wildcard : Bool) (n : Nat)
    (s : Nat → State) : Prop :=
  match configuration.property with
  | .reachability => system.IsRun wildcard n s ∧ configuration.Meets (s n)
  | .liveness => ∃ r mover, system.IsLasso configuration wildcard n r s mover

theorem violates_reachability_iff {system : System} {configuration : Configuration}
    {wildcard : Bool} {n : Nat} {s : Nat → State}
    (reachability : configuration.property = .reachability) :
    system.Violates configuration wildcard n s ↔
      system.IsRun wildcard n s ∧ configuration.Meets (s n) := by
  unfold Violates
  rw [reachability]

theorem violates_liveness_iff {system : System} {configuration : Configuration}
    {wildcard : Bool} {n : Nat} {s : Nat → State} (liveness : configuration.property = .liveness) :
    system.Violates configuration wildcard n s ↔
      ∃ r mover, system.IsLasso configuration wildcard n r s mover := by
  unfold Violates
  rw [liveness]

/-- A state of an abstract system covers one of a concrete system: the processes that both have are
at the same locations, and of the predicates that both have the abstract state knows nothing else
than the concrete one. -/
structure Covers (abstract concrete : System) (a c : State) : Prop where
  location : ∀ p, p < abstract.processes.length → p < concrete.processes.length →
    a.location p = c.location p
  status : ∀ name i j, abstract.predicateId? name = some i → concrete.predicateId? name = some j →
    (a.status i).Below (c.status j)

/-- A state covers itself. -/
theorem Covers.refl (system : System) (s : State) : Covers system system s s where
  location _ _ _ := rfl
  status _ _ _ isFirst isSecond := .inr (congrArg s.status (Option.some.inj (isFirst.symm.trans isSecond)))

theorem Covers.trans {first second third : System} {a b c : State}
    (early : Covers first second a b) (late : Covers second third b c)
    (processes : ∀ p, p < first.processes.length → p < third.processes.length →
      p < second.processes.length)
    (names : ∀ name i j, first.predicateId? name = some i → third.predicateId? name = some j →
      ∃ k, second.predicateId? name = some k) : Covers first third a c := by
  constructor
  · intro p insideFirst insideThird
    have insideSecond := processes p insideFirst insideThird
    exact (early.location p insideFirst insideSecond).trans
      (late.location p insideSecond insideThird)
  · intro name i j isFirst isThird
    obtain ⟨k, isSecond⟩ := names name i j isFirst isThird
    exact (early.status name i k isFirst isSecond).trans (late.status name k j isSecond isThird)

/-! ## What states that agree have in common -/

section Agreement

variable {system : System} {wildcard : Bool} {s t s' t' : State}

theorem IsInitial.congr (initial : system.IsInitial s)
    (agree : s.Agrees system.processes.length s') : system.IsInitial s' := by
  constructor
  · intro p inside
    rw [← agree.location p inside]
    exact initial.location p inside
  · intro entry member
    rw [← agree.status]
    exact initial.status entry member

theorem Moves.lt_length {p : Nat} (moves : system.Moves wildcard p s t) :
    p < system.processes.length := by
  rcases moves with ⟨process, found, _⟩
  exact (List.getElem?_eq_some_iff.mp found).1

/-- A process stays where it is with a transition back to its location that assigns nothing. -/
theorem moves_self {p : Nat} {process : Process} {transition : Transition}
    (found : system.processes[p]? = some process) (member : transition ∈ process.transitions)
    (source : s.location p = transition.source) (back : transition.destination = transition.source)
    (nothing : transition.assignments = [])
    (guard : transition.guard.holds wildcard s.status = true) :
    system.Moves wildcard p s s := by
  have takes : system.Takes wildcard p transition s s := by
    constructor
    case source => exact source
    case destination => rw [source, back]
    case guard => exact guard
    case updates =>
      rw [nothing]
      exact fun _ member => absurd member List.not_mem_nil
    case frame => exact fun _ _ _ => rfl
    case idle => exact fun _ _ _ => rfl
  exact ⟨process, found, transition, member, takes⟩

theorem Takes.congr {p : Nat} {transition : Transition}
    (takes : system.Takes wildcard p transition s t) (inside : p < system.processes.length)
    (before : s.Agrees system.processes.length s') (after : t.Agrees system.processes.length t') :
    system.Takes wildcard p transition s' t' where
  source := by rw [← before.location p inside, takes.source]
  destination := by rw [← after.location p inside, takes.destination]
  guard := by rw [← before.status, takes.guard]
  updates assignment member := by
    rw [← before.status, ← after.status, takes.updates assignment member]
  frame id member unassigned := by
    rw [← before.status, ← after.status, takes.frame id member unassigned]
  idle q insideToo other := by
    rw [← before.location q insideToo, ← after.location q insideToo,
      takes.idle q insideToo other]

theorem Moves.congr {p : Nat} (moves : system.Moves wildcard p s t)
    (before : s.Agrees system.processes.length s') (after : t.Agrees system.processes.length t') :
    system.Moves wildcard p s' t' := by
  have inside := moves.lt_length
  rcases moves with ⟨process, found, transition, member, takes⟩
  exact ⟨process, found, transition, member, takes.congr inside before after⟩

theorem meets_congr {configuration : Configuration}
    (valid : ∀ p ∈ configuration.processes, p < system.processes.length)
    (agree : s.Agrees system.processes.length s') :
    configuration.Meets s ↔ configuration.Meets s' :=
  Configuration.meets_iff fun p member => agree.location p (valid p member)

end Agreement

/-! ## Locations that occur -/

theorem lt_extent_of_named {process : Process} {transition : Transition} {location : Nat}
    (member : transition ∈ process.transitions)
    (named : location ≤ max transition.source transition.destination) :
    location < process.extent := by
  have listed : max transition.source transition.destination ∈
      process.transitions.map fun t => max t.source t.destination :=
    List.mem_map.mpr ⟨transition, member, rfl⟩
  unfold Process.extent
  split
  · rename_i none
    rw [Process.lastLocation?, List.max?_eq_none_iff] at none
    rw [none] at listed
    simp at listed
  · rename_i last found
    have largest := (List.max?_le_iff found).mp (Nat.le_refl last) _ listed
    omega

/-- No process leaves its locations. -/
theorem location_lt_extent {system : System} {wildcard : Bool} {n : Nat} {s : Nat → State}
    (run : system.IsRun wildcard n s) {p : Nat} {process : Process}
    (found : system.processes[p]? = some process) : ∀ t ≤ n, (s t).location p < process.extent := by
  have inside := (List.getElem?_eq_some_iff.mp found).1
  intro t
  induction t with
  | zero =>
      intro _
      rw [run.initial.location p inside]
      exact process.one_le_extent
  | succ t ih =>
      intro before
      obtain ⟨mover, moved, isMoved, transition, member, takes⟩ := run.moves t before
      by_cases same : p = mover
      · subst same
        obtain rfl : process = moved := Option.some.inj (found.symm.trans isMoved)
        rw [takes.destination]
        exact lt_extent_of_named member (Nat.le_max_right _ _)
      · rw [takes.idle p inside same]
        exact ih (Nat.le_of_lt before)

/-- A process that no transition takes away from location 0 stays there. -/
theorem IsRun.location_eq_zero {system : System} {wildcard : Bool} {n : Nat} {s : Nat → State}
    (run : system.IsRun wildcard n s) {p : Nat} {process : Process}
    (found : system.processes[p]? = some process)
    (stays : ∀ transition ∈ process.transitions,
      transition.source = 0 → transition.destination = 0) :
    ∀ t ≤ n, (s t).location p = 0 := by
  have inside := (List.getElem?_eq_some_iff.mp found).1
  intro t
  induction t with
  | zero => exact fun _ => run.initial.location p inside
  | succ t ih =>
      intro before
      have here := ih (Nat.le_of_lt before)
      obtain ⟨mover, moved, isMoved, transition, member, takes⟩ := run.moves t before
      by_cases same : p = mover
      · subst same
        obtain rfl : process = moved := Option.some.inj (found.symm.trans isMoved)
        rw [takes.destination]
        exact stays transition member (takes.source.symm.trans here)
      · rw [takes.idle p inside same]
        exact here

theorem IsRun.mono {system : System} {wildcard : Bool} {m n : Nat} {s : Nat → State}
    (run : system.IsRun wildcard n s) (fewer : m ≤ n) : system.IsRun wildcard m s :=
  ⟨run.initial, fun t before => run.moves t (Nat.lt_of_lt_of_le before fewer)⟩

theorem IsLasso.isRun {system : System} {configuration : Configuration} {wildcard : Bool}
    {n r : Nat} {s : Nat → State} {mover : Nat → Nat}
    (lasso : system.IsLasso configuration wildcard n r s mover) : system.IsRun wildcard n s :=
  ⟨lasso.initial, fun t before => ⟨mover t, lasso.moves t before⟩⟩

end System

end Trivalent
