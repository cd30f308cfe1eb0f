/-!
# Ascending lists

The members of a list, each once, in increasing order.  This is how finite sets of predicate ids,
of atoms and of expectations are listed.
-/

namespace Trivalent

/-- A list in which an entry equal to its neighbour is dropped. -/
def dropRepeats {α : Type} [DecidableEq α] : List α → List α
  | [] => []
  | [a] => [a]
  | a :: b :: rest => if a = b then dropRepeats (b :: rest) else a :: dropRepeats (b :: rest)

@[simp]
theorem mem_dropRepeats {α : Type} [DecidableEq α] {a : α} {entries : List α} :
    a ∈ dropRepeats entries ↔ a ∈ entries := by
  fun_induction dropRepeats entries with
  | case1 => rfl
  | case2 => rfl
  | case3 b rest ih => simp [ih]
  | case4 b c rest _ ih => simp [ih]

/-- The members of a list in increasing order, each once. -/
def ascending {α : Type} [DecidableEq α] [Ord α] (entries : List α) : List α :=
  dropRepeats (entries.mergeSort fun a b => (compare a b).isLE)

/-- Listing in order neither adds nor loses a member. -/
@[simp]
theorem mem_ascending {α : Type} [DecidableEq α] [Ord α] {a : α} {entries : List α} :
    a ∈ ascending entries ↔ a ∈ entries := by
  simp [ascending]

end Trivalent
