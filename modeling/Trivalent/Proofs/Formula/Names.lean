import Trivalent.Formula.Atom
import Trivalent.Proofs.Grammar.Reading
import Trivalent.Text.Numeral

/-!
# Names of atoms

The name of an atom consists of fields between underscores: its kind or its predicate, and numbers.
A text is cut into fields in one way only, so different atoms have different names.
-/

namespace Trivalent

open Grammar (stops run_unique)

/-! ## Parts between separators -/

section Cuts

variable {α : Type} {P : α → Prop} {write : α → List Char} {inner outer : List Char → Prop}
  {separator : List Char}

/-- A text that begins with the writing of `x` does not begin with that of another value of a kind,
if what is left behind both is as it may be. -/
def Cuts (P : α → Prop) (write : α → List Char) (ends : List Char → Prop) (x : α) : Prop :=
  ∀ y rest left, P y → ends rest → ends left → write x ++ rest = write y ++ left →
    x = y ∧ rest = left

/-- What stands behind the first of several parts. -/
def behindFirst (separator : List Char) (write : α → List Char) (xs : List α)
    (rest : List Char) : List Char :=
  xs.foldr (fun x text => separator ++ (write x ++ text)) rest

theorem intercalate_append (x : α) (xs : List α) (rest : List Char) :
    separator.intercalate ((x :: xs).map write) ++ rest =
      write x ++ behindFirst separator write xs rest := by
  induction xs generalizing x with
  | nil => simp [behindFirst]
  | cons y ys ih =>
      rw [List.map_cons, List.map_cons, List.intercalate_cons_cons, ← List.map_cons,
        List.append_assoc, ih y]
      simp [behindFirst]

variable (next : ∀ text, inner (separator ++ text)) (last : ∀ text, outer text → inner text)
  (ended : ∀ text, ¬outer (separator ++ text))

include next last in
theorem inner_behindFirst (xs : List α) {rest : List Char} (ends : outer rest) :
    inner (behindFirst separator write xs rest) := by
  cases xs with
  | nil => exact last rest ends
  | cons x xs => exact next _

include next last ended

theorem behindFirst_unique {xs ys : List α} {rest left : List Char}
    (each : ∀ x ∈ xs, Cuts P write inner x) (kind : ∀ y ∈ ys, P y) (ends : outer rest)
    (endsToo : outer left)
    (same : behindFirst separator write xs rest = behindFirst separator write ys left) :
    xs = ys ∧ rest = left := by
  induction xs generalizing ys with
  | nil =>
      cases ys with
      | nil => exact ⟨rfl, same⟩
      | cons y ys =>
          have continued : rest = separator ++ (write y ++ behindFirst separator write ys left) := same
          exact absurd (continued ▸ ends) (ended _)
  | cons x xs ih =>
      cases ys with
      | nil =>
          have continued : left = separator ++ (write x ++ behindFirst separator write xs rest) :=
            same.symm
          exact absurd (continued ▸ endsToo) (ended _)
      | cons y ys =>
          have parts : write x ++ behindFirst separator write xs rest =
              write y ++ behindFirst separator write ys left := List.append_cancel_left same
          rw [List.forall_mem_cons] at each kind
          obtain ⟨rfl, later⟩ := each.1 y _ _ kind.1 (inner_behindFirst next last xs ends)
            (inner_behindFirst next last ys endsToo) parts
          obtain ⟨rfl, rfl⟩ := ih each.2 kind.2 later
          exact ⟨rfl, rfl⟩

/-- A text is cut behind a list of parts with separators between them in one way only, if it is cut
so behind every part. -/
theorem cuts_intercalate {xs : List α} (some : xs ≠ []) (each : ∀ x ∈ xs, Cuts P write inner x) :
    Cuts (fun ys => ys ≠ [] ∧ ∀ y ∈ ys, P y) (fun ys => separator.intercalate (ys.map write))
      outer xs := by
  rintro ys rest left ⟨someToo, kind⟩ ends endsToo same
  cases xs with
  | nil => exact absurd rfl some
  | cons x xs =>
      cases ys with
      | nil => exact absurd rfl someToo
      | cons y ys =>
          rw [intercalate_append, intercalate_append] at same
          rw [List.forall_mem_cons] at each kind
          obtain ⟨rfl, later⟩ := each.1 y _ _ kind.1 (inner_behindFirst next last xs ends)
            (inner_behindFirst next last ys endsToo) same
          obtain ⟨rfl, rfl⟩ := behindFirst_unique next last ended each.2 kind.2 ends endsToo later
          exact ⟨rfl, rfl⟩

end Cuts

theorem mem_of_mem_intercalate {α : Type} {separator : List α} {parts : List (List α)} {c : α}
    (member : c ∈ separator.intercalate parts) : c ∈ separator ∨ ∃ part ∈ parts, c ∈ part := by
  induction parts with
  | nil => simp at member
  | cons part parts ih =>
      cases parts with
      | nil => exact .inr ⟨part, List.mem_cons_self, by simpa using member⟩
      | cons next parts =>
          rw [List.intercalate_cons_cons, List.mem_append, List.mem_append] at member
          rcases member with (here | separates) | later
          · exact .inr ⟨part, List.mem_cons_self, here⟩
          · exact .inl separates
          · refine (ih later).imp_right ?_
            rintro ⟨part, listed, here⟩
            exact ⟨part, List.mem_cons_of_mem _ listed, here⟩

/-! ## Fields -/

/-- Fields without underscores are told by the text that has them between underscores. -/
theorem fields_unique {xs ys : List (List Char)} (some : xs ≠ []) (someToo : ys ≠ [])
    (plain : ∀ x ∈ xs, '_' ∉ x) (plainToo : ∀ y ∈ ys, '_' ∉ y)
    (same : ['_'].intercalate xs = ['_'].intercalate ys) : xs = ys := by
  have runs {x : List Char} (plain : '_' ∉ x) : ∀ c ∈ x, (c != '_') = true := by
    intro c member
    rw [bne_iff_ne]
    rintro rfl
    exact plain member
  have each : ∀ x ∈ xs, Cuts (fun y => '_' ∉ y) id (fun rest => stops (· != '_') rest = true) x :=
    fun x member y rest left plainY stop stopLeft same =>
      run_unique (runs (plain x member)) stop (runs plainY) stopLeft same
  have next (text : List Char) : stops (· != '_') (['_'] ++ text) = true := rfl
  have last : ∀ text, text = [] → stops (· != '_') text = true := by
    rintro text rfl
    rfl
  have ended (text : List Char) : ¬['_'] ++ text = [] := nofun
  have whole : ['_'].intercalate (xs.map id) ++ [] = ['_'].intercalate (ys.map id) ++ [] := by
    simpa using same
  exact (cuts_intercalate next last ended some each ys [] [] ⟨someToo, plainToo⟩ rfl rfl whole).1

namespace Atom

open Numeral (digits)

theorem isDigit_of_mem_digits {n : Nat} {c : Char} (member : c ∈ digits n) : c.isDigit = true :=
  Nat.isDigit_of_mem_toDigits (by decide) (by decide) member

theorem digits_inj {m n : Nat} : digits m = digits n ↔ m = n := by
  constructor
  · intro same
    rw [← Nat.ofDigitChars_ten_toDigits (n := m), ← Nat.ofDigitChars_ten_toDigits (n := n)]
    exact congrArg _ same
  · rintro rfl
    rfl

/-- No digits begins with a character that is no digit. -/
theorem digits_ne {n : Nat} {c : Char} {text : List Char} (letter : c.isDigit = false) :
    digits n ≠ c :: text := by
  intro same
  have digit : c.isDigit = true := isDigit_of_mem_digits (n := n) (same ▸ List.mem_cons_self)
  rw [letter] at digit
  contradiction

/-- The field that marks the shadow of an atom, if there is one. -/
def shadowFields (shadow : Bool) : List (List Char) :=
  if shadow then [['c']] else []

/-- The letter of a bit of a predicate. -/
def bitLetter : PredicateBit → Char
  | .unknown => 'u'
  | .truth => 't'

/-- The fields of the name of an atom. -/
def fields : Atom → List (List Char)
  | .location process bit step shadow =>
      [['n'], digits step, digits process, digits bit] ++ shadowFields shadow
  | .predicate id bit step shadow =>
      [digits id, digits step, [bitLetter bit]] ++ shadowFields shadow
  | .record step => [['r', 'e'], digits step]
  | .recorded step => [['r', 'd'], digits step]
  | .progress step => [['l', 'v'], digits step]
  | .fair process step => [['f', 'r'], digits step, digits process]
  | .wildcard => ["unknown".toList]

/-- The name of an atom has its fields between underscores. -/
theorem toList_text (a : Atom) : a.text.toList = ['_'].intercalate a.fields := by
  cases a with
  | location process bit step shadow =>
      cases shadow <;> simp [text, shadowMark, fields, shadowFields, digits, toString,
        List.intercalate_cons_cons]
  | predicate id bit step shadow =>
      cases shadow <;> cases bit <;> simp [text, shadowMark, fields, shadowFields, bitLetter, digits,
        toString, List.intercalate_cons_cons]
  | record step => simp [text, fields, digits, toString, List.intercalate_cons_cons]
  | recorded step => simp [text, fields, digits, toString, List.intercalate_cons_cons]
  | progress step => simp [text, fields, digits, toString, List.intercalate_cons_cons]
  | fair process step => simp [text, fields, digits, toString, List.intercalate_cons_cons]
  | wildcard => rfl

theorem fields_ne_nil (a : Atom) : a.fields ≠ [] := by
  cases a <;> simp [fields]

theorem text_ne_empty (a : Atom) : a.text ≠ "" := by
  intro empty
  have none : ['_'].intercalate a.fields = [] := by rw [← toList_text, empty]; rfl
  cases a <;> simp [fields, List.intercalate_cons_cons] at none

/-- The fields of a name consist of letters and digits. -/
theorem isAlphanum_of_mem_fields {a : Atom} :
    ∀ field ∈ a.fields, ∀ c ∈ field, c.isAlphanum = true := by
  have numeric (n : Nat) : ∀ c ∈ digits n, c.isAlphanum = true := by
    intro c member
    rw [Char.isAlphanum, isDigit_of_mem_digits member, Bool.or_true]
  have marked (shadow : Bool) : ∀ field ∈ shadowFields shadow, ∀ c ∈ field,
      c.isAlphanum = true := by
    have each : (shadowFields shadow).all (·.all Char.isAlphanum) = true := by cases shadow <;> rfl
    simpa only [List.all_eq_true] using each
  have lettered (bit : PredicateBit) : (bitLetter bit).isAlphanum = true := by
    cases bit <;> rfl
  cases a with
  | location process bit step shadow =>
      rw [fields, List.forall_mem_append]
      exact ⟨by simpa using ⟨numeric step, numeric process, numeric bit⟩, marked shadow⟩
  | predicate id bit step shadow =>
      rw [fields, List.forall_mem_append]
      exact ⟨by simpa using ⟨numeric id, numeric step, lettered bit⟩, marked shadow⟩
  | record step => simpa [fields] using numeric step
  | recorded step => simpa [fields] using numeric step
  | progress step => simpa [fields] using numeric step
  | fair process step => simpa [fields] using ⟨numeric step, numeric process⟩
  | wildcard =>
      have each : "unknown".toList.all Char.isAlphanum = true := by decide
      simpa only [fields, List.forall_mem_singleton, List.all_eq_true] using each

theorem shadowFields_inj {shadow other : Bool} :
    shadowFields shadow = shadowFields other ↔ shadow = other := by
  cases shadow <;> cases other <;> decide

theorem bitLetter_inj {bit other : PredicateBit} : bitLetter bit = bitLetter other ↔ bit = other := by
  cases bit <;> cases other <;> decide

/-- The first field tells the kind of an atom, and the other fields tell the rest. -/
theorem fields_inj {a b : Atom} (same : a.fields = b.fields) : a = b := by
  have letters (n : Nat) (text : List Char) : digits n ≠ 'n' :: text ∧ digits n ≠ 'r' :: text ∧
      digits n ≠ 'l' :: text ∧ digits n ≠ 'f' :: text ∧ digits n ≠ 'u' :: text :=
    ⟨digits_ne rfl, digits_ne rfl, digits_ne rfl, digits_ne rfl, digits_ne rfl⟩
  have lettersToo (n : Nat) (text : List Char) : 'n' :: text ≠ digits n ∧ 'r' :: text ≠ digits n ∧
      'l' :: text ≠ digits n ∧ 'f' :: text ≠ digits n ∧ 'u' :: text ≠ digits n := by
    simpa only [ne_comm] using letters n text
  cases a <;> cases b <;>
    simp_all [fields, digits_inj, shadowFields_inj, bitLetter_inj]

/-- Different atoms have different names. -/
theorem text_inj {a b : Atom} (same : a.text = b.text) : a = b := by
  have plain (a : Atom) : ∀ field ∈ a.fields, '_' ∉ field := by
    intro field member underscore
    exact absurd (isAlphanum_of_mem_fields field member '_' underscore) (by decide)
  apply fields_inj
  apply fields_unique a.fields_ne_nil b.fields_ne_nil (plain a) (plain b)
  rw [← toList_text, ← toList_text, same]

end Atom

end Trivalent
