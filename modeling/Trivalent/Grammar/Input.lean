/-!
# Input of a grammar

What is left of a text while it is read.  Its length is kept beside it, so that places in the text
are compared without counting.  `strip?_eq_some_iff` says what it means to take a front away.
-/

namespace Trivalent.Grammar

/-- What is left of a text. -/
structure Input where
  /-- The characters. -/
  chars : List Char
  /-- Their number. -/
  length : Nat
  /-- The number is that of the characters. -/
  length_eq : length = chars.length

namespace Input

/-- The whole of a text. -/
def ofText (text : List Char) : Input :=
  ⟨text, text.length, rfl⟩

@[simp]
theorem chars_ofText (text : List Char) : (ofText text).chars = text :=
  rfl

@[ext]
protected theorem ext {a b : Input} (same : a.chars = b.chars) : a = b := by
  cases a with
  | mk chars length length_eq =>
      cases b with
      | mk others length' length_eq' =>
          cases same
          cases length_eq
          cases length_eq'
          rfl

@[simp]
theorem ofText_chars (input : Input) : ofText input.chars = input :=
  Input.ext rfl

/-- The next character, and what is left behind it. -/
def next? : Input → Option (Char × Input)
  | ⟨[], _, _⟩ => none
  | ⟨c :: rest, length, length_eq⟩ => some (c, ⟨rest, length - 1, by simp [length_eq]⟩)

@[simp]
theorem next?_ofText_nil : next? (ofText []) = none :=
  rfl

@[simp]
theorem next?_ofText_cons (c : Char) (rest : List Char) :
    next? (ofText (c :: rest)) = some (c, ofText rest) :=
  rfl

theorem next?_eq_some_iff {input rest : Input} {c : Char} :
    input.next? = some (c, rest) ↔ input.chars = c :: rest.chars := by
  rw [← ofText_chars input, chars_ofText]
  cases input.chars with
  | nil => simp
  | cons d others =>
      rw [next?_ofText_cons, Option.some.injEq, Prod.mk.injEq, Input.ext_iff, chars_ofText,
        List.cons.injEq]

/-- The input without its first characters. -/
def drop (input : Input) (count : Nat) : Input :=
  ⟨input.chars.drop count, input.length - count, by simp [input.length_eq]⟩

@[simp]
theorem chars_drop (input : Input) (count : Nat) :
    (input.drop count).chars = input.chars.drop count :=
  rfl

/-- The input without a given front, if it has it. -/
def strip? : List Char → Input → Option Input
  | [], input => some input
  | c :: front, input =>
      match input.next? with
      | some (d, rest) => if c = d then strip? front rest else none
      | none => none

theorem strip?_eq_some_iff {front : List Char} {input rest : Input} :
    strip? front input = some rest ↔ input.chars = front ++ rest.chars := by
  induction front generalizing input with
  | nil => simp [strip?, Input.ext_iff]
  | cons c front ih =>
      rw [← ofText_chars input, chars_ofText]
      cases input.chars with
      | nil => simp [strip?]
      | cons d others =>
          by_cases same : c = d
          · simp [strip?, same, ih]
          · simp [strip?, same, Ne.symm same]

end Input

end Trivalent.Grammar
