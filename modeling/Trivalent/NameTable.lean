/-!
# Tables by name

A finite map from names, listed in the order of the names (by code point).  A later entry for a
name takes the place of an earlier one.
-/

namespace Trivalent

/-- A finite map from names to `α`. -/
structure NameTable (α : Type) where
  /-- The entries, in increasing order of their names. -/
  entries : List (String × α)
  /-- Names increase, so none occurs twice. -/
  increasing : entries.Pairwise fun a b => a.1 < b.1

namespace NameTable

variable {α : Type}

/-- The table without entries. -/
def empty : NameTable α :=
  ⟨[], .nil⟩

instance : Inhabited (NameTable α) :=
  ⟨empty⟩

/-- The entries with one more, in its place. -/
def insertEntry (name : String) (value : α) : List (String × α) → List (String × α)
  | [] => [(name, value)]
  | (other, kept) :: rest =>
      if name < other then (name, value) :: (other, kept) :: rest
      else if name = other then (name, value) :: rest
      else (other, kept) :: insertEntry name value rest

theorem name_mem_insertEntry {name : String} {value : α} {entries : List (String × α)}
    {entry : String × α} (found : entry ∈ insertEntry name value entries) :
    entry = (name, value) ∨ entry ∈ entries := by
  induction entries with
  | nil => simpa [insertEntry] using found
  | cons head rest ih =>
      obtain ⟨other, kept⟩ := head
      simp only [insertEntry] at found
      split at found
      · simpa using found
      · split at found
        · rcases List.mem_cons.mp found with rfl | found
          · exact .inl rfl
          · exact .inr (List.mem_cons_of_mem _ found)
        · rcases List.mem_cons.mp found with rfl | found
          · exact .inr List.mem_cons_self
          · exact (ih found).imp id (List.mem_cons_of_mem _)

theorem increasing_insertEntry (name : String) (value : α) {entries : List (String × α)}
    (increasing : entries.Pairwise fun a b => a.1 < b.1) :
    (insertEntry name value entries).Pairwise fun a b => a.1 < b.1 := by
  induction entries with
  | nil => simp [insertEntry]
  | cons head rest ih =>
      obtain ⟨other, kept⟩ := head
      obtain ⟨first, later⟩ := List.pairwise_cons.mp increasing
      simp only [insertEntry]
      split
      · rename_i less
        refine List.pairwise_cons.mpr ⟨?_, increasing⟩
        intro entry member
        rcases List.mem_cons.mp member with rfl | member
        · exact less
        · exact String.lt_trans less (first entry member)
      · split
        · rename_i equal
          subst equal
          exact List.pairwise_cons.mpr ⟨first, later⟩
        · rename_i notLess notEqual
          refine List.pairwise_cons.mpr ⟨?_, ih later⟩
          intro entry member
          rcases name_mem_insertEntry member with rfl | member
          · apply Classical.byContradiction
            intro notGreater
            exact notEqual (String.le_antisymm (String.not_lt.mp notGreater)
              (String.not_lt.mp notLess))
          · exact first entry member

/-- The table with one more entry; an entry of the same name is replaced. -/
def insert (table : NameTable α) (name : String) (value : α) : NameTable α :=
  ⟨insertEntry name value table.entries, increasing_insertEntry name value table.increasing⟩

/-- The table of a list of entries, of which later ones win. -/
def ofList (entries : List (String × α)) : NameTable α :=
  entries.foldl (fun table entry => table.insert entry.1 entry.2) empty

/-- The value of a name. -/
def get? (table : NameTable α) (name : String) : Option α :=
  (table.entries.find? fun entry => entry.1 == name).map (·.2)

/-- Whether a name has a value. -/
def contains (table : NameTable α) (name : String) : Bool :=
  table.entries.any fun entry => entry.1 == name

/-- The names, in increasing order. -/
def names (table : NameTable α) : List String :=
  table.entries.map (·.1)

/-- The values, in increasing order of their names. -/
def values (table : NameTable α) : List α :=
  table.entries.map (·.2)

theorem names_nodup (table : NameTable α) : table.names.Nodup := by
  refine (List.pairwise_map.mpr ?_ : (table.entries.map (·.1)).Pairwise (· ≠ ·))
  refine table.increasing.imp ?_
  rintro a b less equal
  rw [equal] at less
  exact String.lt_irrefl _ less

/-- A name has at most one entry. -/
theorem get?_eq_some_iff (table : NameTable α) {name : String} {value : α} :
    table.get? name = some value ↔ (name, value) ∈ table.entries := by
  rcases table with ⟨entries, increasing⟩
  unfold get?
  simp only [Option.map_eq_some_iff]
  induction entries with
  | nil => simp
  | cons head rest ih =>
      rcases List.pairwise_cons.mp increasing with ⟨first, later⟩
      by_cases same : head.1 = name
      · rw [List.find?_cons_of_pos (by simpa using same)]
        constructor
        · rintro ⟨entry, found, rfl⟩
          rw [← same, Option.some.inj found]
          exact List.mem_cons_self
        · intro member
          rcases List.mem_cons.mp member with isHead | member
          · exact ⟨head, rfl, by rw [← isHead]⟩
          · have less := first _ member
            rw [same] at less
            exact absurd less (String.lt_irrefl _)
      · rw [List.find?_cons_of_neg (by simpa using same), ih later, List.mem_cons]
        constructor
        · intro member
          exact .inr member
        · rintro (rfl | member)
          · exact absurd rfl same
          · exact member

theorem get?_insert (table : NameTable α) (name other : String) (value : α) :
    (table.insert name value).get? other =
      if name = other then some value else table.get? other := by
  rcases table with ⟨entries, increasing⟩
  show ((insertEntry name value entries).find? fun entry => entry.1 == other).map (·.2) =
    if name = other then some value else (entries.find? fun entry => entry.1 == other).map (·.2)
  clear increasing
  induction entries with
  | nil => by_cases same : name = other <;> simp [insertEntry, same]
  | cons head rest ih =>
      obtain ⟨first, kept⟩ := head
      rw [insertEntry]
      split
      · by_cases same : name = other <;> simp [same]
      split
      · rename_i replaced
        subst replaced
        by_cases same : name = other <;> simp [same]
      · rename_i notReplaced
        by_cases isFirst : first = other
        · subst isFirst
          simp [notReplaced]
        · simpa [isFirst] using ih

/-- Of the entries for a name, the last one counts. -/
theorem get?_ofList (entries : List (String × α)) (name : String) :
    (ofList entries).get? name =
      (entries.reverse.find? fun entry => entry.1 == name).map (·.2) := by
  have later (table : NameTable α) :
      (entries.foldl (fun table entry => table.insert entry.1 entry.2) table).get? name =
        ((entries.reverse.find? fun entry => entry.1 == name).map (·.2)).or (table.get? name) := by
    induction entries generalizing table with
    | nil => rfl
    | cons first rest ih =>
        rw [List.foldl_cons, ih, get?_insert, List.reverse_cons, List.find?_append]
        by_cases same : first.1 = name <;>
          cases rest.reverse.find? (fun entry => entry.1 == name) <;> simp [same]
  rw [ofList, later, empty, get?, List.find?_nil, Option.map_none, Option.or_none]

end NameTable

end Trivalent
