/-!
# White space

The characters with the Unicode property `White_Space`, and text without them at its ends.
-/

namespace Trivalent.Text

/-- The characters with the Unicode property `White_Space`. -/
def isBlank (c : Char) : Bool :=
  let code := c.toNat
  (0x09 ≤ code && code ≤ 0x0D) || code == 0x20 || code == 0x85 || code == 0xA0 ||
    code == 0x1680 || (0x2000 ≤ code && code ≤ 0x200A) || code == 0x2028 || code == 0x2029 ||
    code == 0x202F || code == 0x205F || code == 0x3000

/-- White space of the core library is white space. -/
theorem isBlank_of_isWhitespace {c : Char} (blank : c.isWhitespace = true) :
    isBlank c = true := by
  simp only [Char.isWhitespace, Bool.or_eq_true, decide_eq_true_eq] at blank
  rcases blank with ((rfl | rfl) | rfl) | rfl <;> decide

/-- A list without what satisfies `drop` at its end. -/
def dropEndWhile {α : Type} (drop : α → Bool) (entries : List α) : List α :=
  (entries.reverse.dropWhile drop).reverse

/-- Text without white space at either end. -/
def trim (text : List Char) : List Char :=
  dropEndWhile isBlank (text.dropWhile isBlank)

@[simp]
theorem trim_nil : trim [] = [] :=
  rfl

end Trivalent.Text
