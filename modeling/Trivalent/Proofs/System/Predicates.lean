import Mathlib.Data.List.Nodup
import Mathlib.Data.List.Pairwise
import Trivalent.System.Basic

/-!
# Predicates of a system

The predicates of a system are found by name and by number, and they are listed by number.  All
three show one table.  If no number is given twice, then names and numbers stand for each other, and
the list has every predicate once.
-/

namespace Trivalent.System

variable {system : System} {id : Nat} {name : String}

theorem mem_predicatesById :
    (id, name) ∈ system.predicatesById ↔ (name, id) ∈ system.predicates.entries := by
  simp only [predicatesById, List.mem_mergeSort, List.mem_map, Prod.mk.injEq]
  constructor
  · rintro ⟨entry, member, rfl, rfl⟩
    exact member
  · intro member
    exact ⟨_, member, rfl, rfl⟩

theorem mem_predicateIds : id ∈ system.predicateIds ↔ id ∈ system.predicates.values := by
  simp only [predicateIds, predicatesById, NameTable.values, List.mem_map, List.mem_mergeSort]
  constructor
  · rintro ⟨_, ⟨entry, member, rfl⟩, rfl⟩
    exact ⟨entry, member, rfl⟩
  · rintro ⟨entry, member, rfl⟩
    exact ⟨_, ⟨entry, member, rfl⟩, rfl⟩

theorem predicateId?_eq_some_iff :
    system.predicateId? name = some id ↔ (name, id) ∈ system.predicates.entries :=
  NameTable.get?_eq_some_iff _

/-- The name of a number is a name with that number. -/
theorem predicateId?_of_predicateName? (found : system.predicateName? id = some name) :
    system.predicateId? name = some id := by
  rw [predicateName?, Option.map_eq_some_iff] at found
  obtain ⟨⟨name, other⟩, isFirst, rfl⟩ := found
  obtain rfl : other = id := by simpa using List.find?_some isFirst
  exact predicateId?_eq_some_iff.mpr (List.mem_of_find?_eq_some isFirst)

/-- Every number of a predicate has a name. -/
theorem exists_predicateName? (declared : id ∈ system.predicates.values) :
    ∃ name, system.predicateName? id = some name := by
  obtain ⟨entry, listed, rfl⟩ := List.mem_map.mp declared
  have isSome : (system.predicates.entries.find? fun other => other.2 == entry.2).isSome := by
    rw [List.find?_isSome]
    exact ⟨entry, listed, by simp⟩
  obtain ⟨found, isFound⟩ := Option.isSome_iff_exists.mp isSome
  exact ⟨found.1, by rw [predicateName?, isFound]; rfl⟩

/-- The order of the list: by number, and then by name. -/
theorem isListedBefore_iff {a b : Nat × String} :
    (a.1 < b.1 || (a.1 == b.1 && a.2 ≤ b.2)) = true ↔ a.1 < b.1 ∨ a.1 = b.1 ∧ a.2 ≤ b.2 := by
  simp

section Distinct

variable (distinct : system.predicates.values.Nodup)

include distinct

/-- Names and numbers of predicates stand for each other. -/
theorem predicateName?_eq_some_iff :
    system.predicateName? id = some name ↔ system.predicateId? name = some id := by
  refine ⟨predicateId?_of_predicateName?, fun known => ?_⟩
  have listed := predicateId?_eq_some_iff.mp known
  obtain ⟨other, found⟩ := exists_predicateName? (List.mem_map_of_mem listed)
  have listedToo := predicateId?_eq_some_iff.mp (predicateId?_of_predicateName? found)
  have same : (other, id) = (name, id) := List.inj_on_of_nodup_map distinct listedToo listed rfl
  rw [found, (Prod.mk.inj same).1]

/-- The list of the predicates ascends. -/
theorem pairwise_predicatesById : system.predicatesById.Pairwise fun a b => a.1 < b.1 := by
  have sorted : system.predicatesById.Pairwise fun a b => a.1 ≤ b.1 := by
    refine (List.pairwise_mergeSort ?transitive ?total _).imp ?ascends
    case transitive =>
      intro a b c
      simp only [isListedBefore_iff]
      rintro (less | ⟨same, le⟩) (less' | ⟨same', le'⟩)
      · exact .inl (Nat.lt_trans less less')
      · exact .inl (same' ▸ less)
      · exact .inl (same ▸ less')
      · exact .inr ⟨same.trans same', String.le_trans le le'⟩
    case total =>
      intro a b
      rw [Bool.or_eq_true_iff, isListedBefore_iff, isListedBefore_iff]
      rcases Nat.lt_trichotomy a.1 b.1 with less | same | greater
      · exact .inl (.inl less)
      · exact (String.le_total a.2 b.2).imp (.inr ⟨same, ·⟩) (.inr ⟨same.symm, ·⟩)
      · exact .inr (.inl greater)
    case ascends =>
      intro a b before
      rcases isListedBefore_iff.mp before with less | ⟨same, _⟩
      · exact Nat.le_of_lt less
      · exact Nat.le_of_eq same
  have different : system.predicatesById.Pairwise fun a b => a.1 ≠ b.1 := by
    have permuted : (system.predicatesById.map (·.1)).Perm system.predicates.values := by
      refine ((List.mergeSort_perm _ _).map _).trans (.of_eq ?_)
      simp [NameTable.values]
    exact List.pairwise_map.mp (permuted.nodup_iff.mpr distinct)
  exact (sorted.and different).imp fun both => Nat.lt_of_le_of_ne both.1 both.2

end Distinct

end Trivalent.System
