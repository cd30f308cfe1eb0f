import Trivalent.Json.Value

/-!
# Equality of JSON values

Values are finite data, so it can be decided whether two of them are equal, and with it which value
a text describes.
-/

namespace Trivalent.Json.Value

mutual

/-- Whether two values are the same. -/
def same : Value → Value → Bool
  | .null, .null => true
  | .boolean a, .boolean b => a == b
  | .number m, .number n => decide (m = n)
  | .string text, .string text' => text == text'
  | .array vs, .array ws => sameElements vs ws
  | .object entries, .object entries' => sameEntries entries entries'
  | _, _ => false

/-- Whether the elements of two arrays are the same. -/
def sameElements : List Value → List Value → Bool
  | [], [] => true
  | v :: vs, w :: ws => v.same w && sameElements vs ws
  | _, _ => false

/-- Whether the entries of two objects are the same. -/
def sameEntries : List (List Char × Value) → List (List Char × Value) → Bool
  | [], [] => true
  | (key, v) :: rest, (key', w) :: rest' => key == key' && v.same w && sameEntries rest rest'
  | _, _ => false

end

mutual

theorem same_iff (v w : Value) : v.same w = true ↔ v = w := by
  cases v with
  | null => cases w <;> simp [same]
  | boolean a => cases w <;> simp [same]
  | number n => cases w <;> simp [same]
  | string text => cases w <;> simp [same]
  | array vs =>
      cases w with
      | array ws => simp [same, sameElements_iff vs ws]
      | _ => simp [same]
  | object entries =>
      cases w with
      | object entries' => simp [same, sameEntries_iff entries entries']
      | _ => simp [same]

theorem sameElements_iff (vs ws : List Value) : sameElements vs ws = true ↔ vs = ws := by
  cases vs with
  | nil => cases ws <;> simp [sameElements]
  | cons v vs =>
      cases ws with
      | nil => simp [sameElements]
      | cons w ws => simp [sameElements, same_iff v w, sameElements_iff vs ws]

theorem sameEntries_iff (entries entries' : List (List Char × Value)) :
    sameEntries entries entries' = true ↔ entries = entries' := by
  cases entries with
  | nil => cases entries' <;> simp [sameEntries]
  | cons entry rest =>
      cases entries' with
      | nil => simp [sameEntries]
      | cons entry' rest' =>
          obtain ⟨key, v⟩ := entry
          obtain ⟨key', w⟩ := entry'
          simp [sameEntries, same_iff v w, sameEntries_iff rest rest']

end

instance decidableEq : DecidableEq Value := fun v w =>
  decidable_of_iff _ (same_iff v w)

end Trivalent.Json.Value
