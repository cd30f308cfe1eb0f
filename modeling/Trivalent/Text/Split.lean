/-!
# Parts of a text

A text cut at every occurrence of a separator.
-/

namespace Trivalent.Text

/-- The parts of a text between occurrences of a separator. -/
def splitAt (separator : Char) : List Char → List (List Char)
  | [] => [[]]
  | c :: rest =>
      if c = separator then [] :: splitAt separator rest
      else
        match splitAt separator rest with
        | [] => [[c]]
        | part :: parts => (c :: part) :: parts

theorem splitAt_ne_nil (separator : Char) (text : List Char) : splitAt separator text ≠ [] := by
  cases text with
  | nil => simp [splitAt]
  | cons c rest =>
      simp only [splitAt]
      split
      · simp
      · split <;> simp

/-- The separators between the parts make up the text again. -/
theorem intercalate_splitAt (separator : Char) (text : List Char) :
    [separator].intercalate (splitAt separator text) = text := by
  induction text with
  | nil => rfl
  | cons c rest ih =>
      simp only [splitAt]
      split
      · rename_i same
        subst same
        cases h : splitAt c rest with
        | nil => exact absurd h (splitAt_ne_nil c rest)
        | cons part parts =>
            rw [h] at ih
            simpa [List.intercalate, List.intersperse] using ih
      · cases h : splitAt separator rest with
        | nil => exact absurd h (splitAt_ne_nil separator rest)
        | cons part parts =>
            rw [h] at ih
            cases parts <;> simp_all [List.intercalate, List.intersperse]

end Trivalent.Text
