import Mathlib.Data.List.TakeWhile
import Trivalent.Grammar.Rule

/-!
# What rules read

A rule is a function on inputs that also says what it missed.  For the language of a grammar only
the value and the text that is left matter: `read?` is that part of a rule, as a function on texts.
Every way to combine rules has an equation for it, and a rule reads a whole text exactly if it reads
the text and leaves nothing.
-/

namespace Trivalent.Grammar

/-! ## Runs of characters -/

/-- Whether no character of a class comes first. -/
def stops (accept : Char → Bool) : List Char → Bool
  | [] => true
  | c :: _ => !accept c

section Runs

variable {accept : Char → Bool} {run rest : List Char}

theorem stops_dropWhile (accept : Char → Bool) (text : List Char) :
    stops accept (text.dropWhile accept) = true := by
  induction text with
  | nil => rfl
  | cons c text ih =>
      by_cases accepted : accept c = true
      · rwa [List.dropWhile_cons_of_pos accepted]
      · rw [List.dropWhile_cons_of_neg accepted, stops]
        simpa using accepted

theorem stops_of_imp {narrow : Char → Bool} (imp : ∀ c, narrow c = true → accept c = true)
    (stop : stops accept rest = true) : stops narrow rest = true := by
  cases rest with
  | nil => rfl
  | cons c rest =>
      simp only [stops, Bool.not_eq_true'] at stop ⊢
      rw [← Bool.not_eq_true] at stop ⊢
      exact mt (imp c) stop

variable (all : ∀ c ∈ run, accept c = true) (stop : stops accept rest = true)

include all stop

theorem dropWhile_run : (run ++ rest).dropWhile accept = rest := by
  rw [List.dropWhile_append_of_pos all]
  cases rest with
  | nil => rfl
  | cons c rest => exact List.dropWhile_cons_of_neg (by simpa [stops] using stop)

theorem takeWhile_run : (run ++ rest).takeWhile accept = run := by
  have whole := List.takeWhile_append_dropWhile (p := accept) (l := run ++ rest)
  rw [dropWhile_run all stop] at whole
  exact List.append_cancel_right whole

/-- A text is cut behind a run in one way only. -/
theorem run_unique {other left : List Char} (allOther : ∀ c ∈ other, accept c = true)
    (stopLeft : stops accept left = true) (same : run ++ rest = other ++ left) :
    run = other ∧ rest = left := by
  constructor
  · rw [← takeWhile_run all stop, same, takeWhile_run allOther stopLeft]
  · rw [← dropWhile_run all stop, same, dropWhile_run allOther stopLeft]

end Runs

namespace Rule

variable {α β : Type}

/-- The value that a rule reads from the front of a text, and the text that is left. -/
def read? (rule : Rule α) (text : List Char) : Option (α × List Char) :=
  (rule (.ofText text)).read.map fun found => (found.1, found.2.chars)

theorem map_read (rule : Rule α) (input : Input) :
    (rule input).read.map (fun found => (found.1, found.2.chars)) = rule.read? input.chars := by
  rw [read?, Input.ofText_chars]

theorem isSome_read (rule : Rule α) (input : Input) :
    (rule input).read.isSome = (rule.read? input.chars).isSome := by
  rw [← map_read, Option.isSome_map]

/-! ## Sequences and choices -/

@[simp]
theorem read?_pure (value : α) (text : List Char) :
    (Rule.pure value).read? text = some (value, text) :=
  rfl

@[simp]
theorem bind_eq (rule : Rule α) (next : α → Rule β) : rule >>= next = Rule.bind rule next :=
  rfl

@[simp]
theorem pure_eq (value : α) : (pure value : Rule α) = Rule.pure value :=
  rfl

@[simp]
theorem read?_fail (text : List Char) : (fail : Rule α).read? text = none :=
  rfl

@[simp]
theorem read?_expect (wanted : String) (text : List Char) :
    (expect wanted : Rule α).read? text = none :=
  rfl

theorem read?_bind (rule : Rule α) (next : α → Rule β) (text : List Char) :
    (Rule.bind rule next).read? text =
      (rule.read? text).bind fun found => (next found.1).read? found.2 := by
  rw [read?, Rule.bind, read?]
  cases (rule (.ofText text)).read with
  | none => rfl
  | some found => exact map_read (next found.1) found.2

theorem read?_bind_eq_some_iff {rule : Rule α} {next : α → Rule β} {text rest : List Char} {b : β} :
    (Rule.bind rule next).read? text = some (b, rest) ↔
      ∃ a between, rule.read? text = some (a, between) ∧
        (next a).read? between = some (b, rest) := by
  rw [read?_bind, Option.bind_eq_some_iff, Prod.exists]

/-- A rule whose value is replaced by another one. -/
theorem read?_bind_pure_eq_some_iff {rule : Rule α} {text rest : List Char} {b c : β} :
    (Rule.bind rule fun _ => Rule.pure b).read? text = some (c, rest) ↔
      c = b ∧ ∃ a, rule.read? text = some (a, rest) := by
  simp only [read?_bind_eq_some_iff, read?_pure, Option.some.injEq, Prod.mk.injEq]
  constructor
  · rintro ⟨a, between, found, rfl, rfl⟩
    exact ⟨rfl, a, found⟩
  · rintro ⟨rfl, a, found⟩
    exact ⟨a, rest, found, rfl, rfl⟩

/-- Behind what the first rule reads the second one goes on. -/
theorem read?_bind_of_some {rule : Rule α} {next : α → Rule β} {text rest : List Char} {a : α}
    (found : rule.read? text = some (a, rest)) :
    (Rule.bind rule next).read? text = (next a).read? rest := by
  rw [read?_bind, found]
  rfl

theorem read?_bind_of_none {rule : Rule α} {next : α → Rule β} {text : List Char}
    (none : rule.read? text = none) : (Rule.bind rule next).read? text = .none := by
  rw [read?_bind, none]
  rfl

theorem read?_orElse (first second : Rule α) (text : List Char) :
    (orElse first second).read? text = (first.read? text).or (second.read? text) := by
  rw [read?, orElse, read?, read?]
  cases found : (first (.ofText text)).read with
  | none => simp
  | some _ => simp [found]

theorem read?_orElse_of_none {first second : Rule α} {text : List Char}
    (none : first.read? text = none) : (orElse first second).read? text = second.read? text := by
  rw [read?_orElse, none, Option.none_or]

theorem read?_orElse_of_some {first second : Rule α} {text : List Char} {found : α × List Char}
    (isFound : first.read? text = some found) : (orElse first second).read? text = some found := by
  rw [read?_orElse, isFound, Option.some_or]

@[simp]
theorem read?_firstOf_nil (text : List Char) : (firstOf [] : Rule α).read? text = none :=
  rfl

@[simp]
theorem read?_firstOf_cons (rule : Rule α) (rules : List (Rule α)) (text : List Char) :
    (firstOf (rule :: rules)).read? text = (rule.read? text).or ((firstOf rules).read? text) :=
  read?_orElse rule (firstOf rules) text

/-- Some rule of several reads a text if one of them does. -/
theorem isSome_read?_firstOf (rules : List (Rule α)) (text : List Char) :
    ((firstOf rules).read? text).isSome = true ↔
      ∃ rule ∈ rules, (rule.read? text).isSome = true := by
  induction rules with
  | nil => simp
  | cons rule rules ih => simp [ih]

@[simp]
theorem read?_quiet (rule : Rule α) (text : List Char) :
    (quiet rule).read? text = rule.read? text :=
  rfl

@[simp]
theorem read?_absent (rule : Rule α) (text : List Char) :
    (absent rule).read? text = if (rule.read? text).isSome then none else some ((), text) := by
  rw [read?, absent, isSome_read, Input.chars_ofText]
  split <;> rfl

theorem read?_select_eq_some_iff {wanted : String} {meaning : α → Option β} {rule : Rule α}
    {text rest : List Char} {b : β} :
    (select wanted meaning rule).read? text = some (b, rest) ↔
      ∃ a, rule.read? text = some (a, rest) ∧ meaning a = some b := by
  rw [select, read?_bind_eq_some_iff]
  constructor
  · rintro ⟨a, between, found, selected⟩
    cases isMeaning : meaning a with
    | none => simp [isMeaning] at selected
    | some c =>
        rw [isMeaning] at selected
        obtain ⟨rfl, rfl⟩ := Prod.mk.inj (Option.some.inj selected)
        exact ⟨a, found, isMeaning⟩
  · rintro ⟨a, found, isMeaning⟩
    exact ⟨a, rest, found, by simp [isMeaning]⟩

/-! ## Characters and texts -/

@[simp]
theorem read?_satisfying_nil (wanted : String) (accept : Char → Bool) :
    (satisfying wanted accept).read? [] = none :=
  rfl

@[simp]
theorem read?_satisfying_cons (wanted : String) (accept : Char → Bool) (c : Char)
    (text : List Char) :
    (satisfying wanted accept).read? (c :: text) = if accept c then some (c, text) else none := by
  rw [read?, satisfying, Input.next?_ofText_cons]
  dsimp only
  split <;> rfl

theorem read?_satisfying_eq_some_iff {wanted : String} {accept : Char → Bool}
    {text rest : List Char} {c : Char} :
    (satisfying wanted accept).read? text = some (c, rest) ↔
      text = c :: rest ∧ accept c = true := by
  cases text with
  | nil => simp
  | cons d text =>
      rw [read?_satisfying_cons]
      constructor
      · intro found
        split at found
        · rename_i accepted
          cases found
          exact ⟨rfl, accepted⟩
        · contradiction
      · rintro ⟨same, accepted⟩
        cases same
        rw [if_pos accepted]

theorem read?_spelled_eq_some_iff {spelling : String} {text rest : List Char} {a : Unit} :
    (spelled spelling).read? text = some (a, rest) ↔ text = spelling.toList ++ rest := by
  rw [read?, spelled]
  have taken (left : Input) : Input.strip? spelling.toList (.ofText text) = some left ↔
      text = spelling.toList ++ left.chars := Input.strip?_eq_some_iff
  cases stripped : Input.strip? spelling.toList (.ofText text) with
  | none =>
      simp only [expect, Option.map_none, reduceCtorEq, false_iff]
      intro same
      have found := (taken (.ofText rest)).mpr same
      rw [stripped] at found
      contradiction
  | some left =>
      have same := (taken left).mp stripped
      simp only [Option.map_some, Option.some.injEq, Prod.mk.injEq, true_and]
      rw [same, List.append_cancel_left_eq]

/-- A repeated character class reads all it can. -/
theorem read?_many_satisfying (wanted : String) (accept : Char → Bool) (text : List Char) :
    (many (satisfying wanted accept)).read? text = some ((), text.dropWhile accept) := by
  have repeated (count : Nat) (text : List Char) (room : text.length < count) :
      (upTo (satisfying wanted accept) count).read? text =
        some ((), text.dropWhile accept) := by
    induction count generalizing text with
    | zero => exact absurd room (Nat.not_lt_zero _)
    | succ count ih =>
        rw [upTo, read?_orElse, read?_bind]
        cases text with
        | nil => rfl
        | cons c text =>
            rw [read?_satisfying_cons]
            by_cases accepted : accept c = true
            · rw [if_pos accepted, List.dropWhile_cons_of_pos accepted]
              have rest := ih text (Nat.lt_of_succ_lt_succ room)
              simp [rest]
            · rw [if_neg accepted, List.dropWhile_cons_of_neg accepted]
              rfl
  exact repeated (text.length + 1) text (Nat.lt_succ_self _)

/-- The text that a rule reads is what stands before the text that it leaves. -/
theorem read?_matched_eq_some_iff {rule : Rule Unit}
    (leaves : ∀ {text rest}, rule.read? text = some ((), rest) → rest <:+ text)
    {text front rest : List Char} :
    (matched rule).read? text = some (front, rest) ↔
      rule.read? text = some ((), rest) ∧ text = front ++ rest := by
  have matchedRead : (matched rule).read? text = some (front, rest) ↔
      rule.read? text = some ((), rest) ∧ text.take (text.length - rest.length) = front := by
    rw [read?, matched, read?]
    cases (rule (.ofText text)).read with
    | none => simp
    | some found =>
        obtain ⟨_, left⟩ := found
        simp only [Option.map_some, Option.some.injEq, Prod.mk.injEq, Input.chars_ofText, true_and]
        rw [show (Input.ofText text).length = text.length from rfl, left.length_eq]
        constructor
        · rintro ⟨same, rfl⟩
          exact ⟨rfl, same⟩
        · rintro ⟨rfl, same⟩
          exact ⟨same, rfl⟩
  rw [matchedRead]
  refine and_congr_right fun found => ?_
  obtain ⟨before, rfl⟩ := leaves found
  rw [List.length_append, Nat.add_sub_cancel, List.take_left, List.append_cancel_right_eq]

/-- A run of characters of a class, behind one of a narrower class. -/
theorem read?_run_eq_some_iff {wanted wanted' : String} {start part : Char → Bool}
    {text rest : List Char} :
    (Rule.bind (satisfying wanted start) fun _ => many (satisfying wanted' part)).read? text =
        some ((), rest) ↔
      ∃ c tail, text = c :: tail ++ rest ∧ start c = true ∧ (∀ d ∈ tail, part d = true) ∧
        stops part rest = true := by
  simp only [read?_bind_eq_some_iff, read?_satisfying_eq_some_iff, read?_many_satisfying,
    Option.some.injEq, Prod.mk.injEq, true_and]
  constructor
  · rintro ⟨c, tail, ⟨rfl, first⟩, rfl⟩
    refine ⟨c, tail.takeWhile part, ?_, first, fun d => List.mem_takeWhile_imp,
      stops_dropWhile part tail⟩
    rw [List.cons_append, List.takeWhile_append_dropWhile]
  · rintro ⟨c, tail, rfl, first, all, stop⟩
    exact ⟨c, tail ++ rest, ⟨rfl, first⟩, dropWhile_run all stop⟩

/-! ## Growing values -/

/-- A value that grows by a step as often as the step reads something, until it reads nothing. -/
inductive Grows (step : α → Rule α) : α → List Char → α → List Char → Prop where
  /-- The step reads nothing. -/
  | stop {a : α} {text : List Char} : (step a).read? text = none → Grows step a text a text
  /-- The step reads something, and behind it the value goes on growing. -/
  | more {a b c : α} {text between rest : List Char} : (step a).read? text = some (b, between) →
      between.length < text.length → Grows step b between c rest → Grows step a text c rest

theorem read?_growUpTo_succ (step : α → Rule α) (count : Nat) (a : α) (text : List Char) :
    (growUpTo step (count + 1) a).read? text =
      match (step a).read? text with
      | none => some (a, text)
      | some (b, between) => (growUpTo step count b).read? between := by
  rw [read?, growUpTo, read?]
  dsimp only
  cases (step a (.ofText text)).read with
  | none => rfl
  | some found => exact map_read (growUpTo step count found.1) found.2

/-- A value grows by as many steps as there is text for. -/
theorem Grows.read?_grow {step : α → Rule α} {a b : α} {text rest : List Char}
    (grows : Grows step a text b rest) : (grow step a).read? text = some (b, rest) := by
  have counted (count : Nat) (room : text.length < count) :
      (growUpTo step count a).read? text = some (b, rest) := by
    induction grows generalizing count with
    | @stop a text none =>
        obtain ⟨count, rfl⟩ := Nat.exists_eq_add_of_lt room
        rw [read?_growUpTo_succ, none]
    | @more a b c text between rest found shorter _ ih =>
        obtain ⟨more, rfl⟩ := Nat.exists_eq_add_of_lt room
        rw [read?_growUpTo_succ, found]
        exact ih (text.length + more) (by omega)
  exact counted (text.length + 1) (Nat.lt_succ_self _)

/-- What is true of a value, whatever is left behind it, stays true while the value grows. -/
theorem invariant_of_read?_grow {step : α → Rule α} {P : α → List Char → Prop}
    (keeps : ∀ a text b rest, P a text → (step a).read? text = some (b, rest) → P b rest)
    {a b : α} {text rest : List Char} (before : P a text)
    (grown : (grow step a).read? text = some (b, rest)) : P b rest := by
  have counted (count : Nat) {a : α} {text : List Char} (before : P a text)
      (grown : (growUpTo step count a).read? text = some (b, rest)) : P b rest := by
    induction count generalizing a text with
    | zero =>
        obtain ⟨rfl, rfl⟩ := Prod.mk.inj (Option.some.inj grown)
        exact before
    | succ count ih =>
        rw [read?_growUpTo_succ] at grown
        split at grown
        · obtain ⟨rfl, rfl⟩ := Prod.mk.inj (Option.some.inj grown)
          exact before
        · rename_i found
          exact ih (keeps _ _ _ _ before found) grown
  exact counted (text.length + 1) before grown

/-! ## Whole texts -/

theorem read?_atEnd (text : List Char) :
    atEnd.read? text = if text.isEmpty then some ((), text) else none := by
  rw [read?, atEnd, Input.chars_ofText]
  split <;> rfl

/-- A rule reads a whole text if it reads the text and leaves nothing. -/
theorem readAll_eq_ok_iff {rule : Rule α} {text : List Char} {a : α} :
    rule.readAll text = .ok a ↔ rule.read? text = some (a, []) := by
  have whole : (∃ rest, (Rule.bind rule fun value => Rule.bind atEnd fun _ =>
      Rule.pure value).read? text = some (a, rest)) ↔ rule.read? text = some (a, []) := by
    simp only [read?_bind_eq_some_iff, read?_atEnd, read?_pure]
    constructor
    · rintro ⟨_, b, between, found, _, _, ended, same⟩
      split at ended
      · rename_i empty
        obtain ⟨rfl, rfl⟩ := Prod.mk.inj (Option.some.inj same)
        rwa [List.isEmpty_iff.mp empty] at found
      · contradiction
    · intro found
      exact ⟨[], a, [], found, (), [], rfl, rfl⟩
  rw [← whole, readAll]
  cases outcome : ((Rule.bind rule fun value => Rule.bind atEnd fun _ =>
      Rule.pure value) (.ofText text)).read with
  | none => simp [read?, outcome]
  | some found => simp [read?, outcome]

end Rule

end Trivalent.Grammar
