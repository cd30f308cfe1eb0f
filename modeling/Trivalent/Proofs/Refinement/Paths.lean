import Mathlib.Algebra.BigOperators.Fin
import Mathlib.Data.Fintype.BigOperators
import Trivalent.Proofs.Witness.Path

/-!
# The number of paths

The atoms of a step tell apart finitely many states: a name for the location of every process, and a
status for every predicate.  So among runs of the same length none of which stays on the path of an
earlier one there are no more than there are such sequences of states.
-/

namespace Trivalent

instance : Fintype Status where
  elems := {.yes, .no, .unknown}
  complete s := by cases s <;> decide

namespace System

variable {system : System}

/-- The number of states that the atoms of a step tell apart: a name for the location of every
process and a status for every predicate. -/
def states (system : System) : Nat :=
  system.processes.foldr (fun p count => Nat.pow 2 p.width * count)
    (Nat.pow 3 system.predicates.entries.length)

/-- What the atoms of a step can tell: a name for each location and a status for each predicate. -/
abbrev Shape (system : System) : Type :=
  ((p : Fin system.processes.length) → Fin (Nat.pow 2 (system.processes[p]).width)) ×
    (Fin system.predicates.entries.length → Status)

/-- The names of the locations in a state and the statuses of its predicates. -/
def shape (system : System) (s : State) : system.Shape where
  fst p := ⟨s.location p % Nat.pow 2 (system.processes[p]).width,
    Nat.mod_lt _ (Nat.two_pow_pos _)⟩
  snd i := s.status (system.predicates.entries[i]).2

theorem states_eq_prod (system : System) :
    system.states = (system.processes.map fun p => Nat.pow 2 p.width).prod *
      Nat.pow 3 system.predicates.entries.length := by
  unfold states
  induction system.processes with
  | nil => simp
  | cons p rest ih => rw [List.foldr_cons, ih, List.map_cons, List.prod_cons, Nat.mul_assoc]

/-- There are as many shapes as states that the atoms tell apart. -/
theorem card_shape (system : System) : Fintype.card system.Shape = system.states := by
  have locations : ∏ p : Fin system.processes.length, Nat.pow 2 (system.processes[p]).width =
      (system.processes.map fun p => Nat.pow 2 p.width).prod :=
    Fin.prod_univ_fun_getElem system.processes fun p => Nat.pow 2 p.width
  rw [Fintype.card_prod, Fintype.card_pi, Fintype.card_fun, Fintype.card_fin, states_eq_prod,
    ← locations]
  simp only [Fintype.card_fin]
  rfl

/-- A state of a run is covered by every state of the same shape. -/
theorem covers_of_shape_eq {wildcard wildcard' : Bool} {n t : Nat} {s s' : Nat → State}
    (run : system.IsRun wildcard n s) (runToo : system.IsRun wildcard' n s') (within : t ≤ n)
    (same : system.shape (s t) = system.shape (s' t)) :
    Covers system system (s t) (s' t) := by
  obtain ⟨locations, statuses⟩ := Prod.mk.inj same
  constructor
  · intro p inside _
    have found : system.processes[p]? = some system.processes[p] := List.getElem?_eq_getElem inside
    have named := Process.extent_le_two_pow_width system.processes[p]
    have small := Nat.lt_of_lt_of_le (location_lt_extent run found t within) named
    have smallToo := Nat.lt_of_lt_of_le (location_lt_extent runToo found t within) named
    have equal := congrArg Fin.val (congrFun locations ⟨p, inside⟩)
    exact (Nat.mod_eq_of_lt small).symm.trans (equal.trans (Nat.mod_eq_of_lt smallToo))
  · intro name i j isFirst isSecond
    obtain rfl := Option.some.inj (isFirst.symm.trans isSecond)
    obtain ⟨place, inside, entry⟩ :=
      List.getElem_of_mem ((NameTable.get?_eq_some_iff _).mp isFirst)
    have equal := congrFun statuses ⟨place, inside⟩
    dsimp only [Fin.getElem_fin] at equal
    rw [entry] at equal
    exact .inr equal

/-- Runs of `n` steps of which none stays on the path of an earlier one are no more than there are
sequences of shapes. -/
theorem length_le_of_not_covers {n : Nat} {runs : List (Nat → State)}
    (areRuns : ∀ s ∈ runs, ∃ wildcard, system.IsRun wildcard n s)
    (distinct : runs.Pairwise fun s s' => ¬∀ t ≤ n, Covers system system (s t) (s' t)) :
    runs.length ≤ Nat.pow system.states (n + 1) := by
  let shapes (s : Nat → State) (t : Fin (n + 1)) : system.Shape := system.shape (s t)
  have nodup : (runs.map shapes).Nodup := by
    rw [List.Nodup, List.pairwise_map]
    refine distinct.imp_of_mem fun {s s'} member memberToo new same => new fun t within => ?_
    obtain ⟨_, run⟩ := areRuns s member
    obtain ⟨_, runToo⟩ := areRuns s' memberToo
    exact covers_of_shape_eq run runToo within
      (congrFun same ⟨t, Nat.lt_succ_of_le within⟩)
  have counted := nodup.length_le_card
  rwa [List.length_map, Fintype.card_fun, card_shape, Fintype.card_fin] at counted

end System

end Trivalent
