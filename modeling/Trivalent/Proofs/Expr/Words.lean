import Trivalent.Expr.Parser
import Trivalent.Proofs.Grammar.Reading

/-!
# Words, numbers and groups

What the rules for the smallest pieces of an expression read.  A word, that is an identifier, a
number or a sign made of letters, goes as far as characters of identifiers go, so a text can be cut
behind a word in one way only.  A group goes to the parenthesis that closes the one it begins with.
-/

namespace Trivalent.Expr

open Grammar (Rule stops stops_of_imp run_unique)
open Grammar.Rule

/-- The characters that may stand between the signs of an expression. -/
def isGap (c : Char) : Bool :=
  c == ' ' || c == '\t' || c == '\n' || c == '\r'

theorem read?_blanks (text : List Char) : blanks.read? text = some ((), text.dropWhile isGap) :=
  read?_many_satisfying "blank" isGap text

/-! ## Words -/

theorem isWordPart_of_isWordStart {c : Char} (start : isWordStart c = true) :
    isWordPart c = true := by
  rw [isWordPart, start, Bool.true_or]

theorem isWordPart_of_isDigit {c : Char} (digit : Numeral.isDigit c = true) :
    isWordPart c = true := by
  rw [isWordPart, digit, Bool.or_true]

theorem isWordStart_iff {c : Char} : isWordStart c = true ↔
    (65 ≤ c.toNat ∧ c.toNat ≤ 90) ∨ (97 ≤ c.toNat ∧ c.toNat ≤ 122) ∨ c.toNat = 95 := by
  have capital : c.isUpper = decide (65 ≤ c.val ∧ c.val ≤ 90) := rfl
  have small : c.isLower = (decide (97 ≤ c.val) && decide (c.val ≤ 122)) := rfl
  have letter : c.isAlpha = (c.isUpper || c.isLower) := rfl
  have line : c = '_' ↔ c.toNat = 95 := by
    rw [← Char.toNat_inj]
    rfl
  rw [isWordStart, letter, capital, small, Bool.or_eq_true, Bool.or_eq_true, beq_iff_eq, line,
    or_assoc]
  simp only [Bool.and_eq_true, decide_eq_true_eq, UInt32.le_iff_toNat_le]
  rfl

theorem isDigit_iff {c : Char} : Numeral.isDigit c = true ↔ 48 ≤ c.toNat ∧ c.toNat ≤ 57 := by
  rw [Numeral.isDigit, Bool.and_eq_true, decide_eq_true_eq, decide_eq_true_eq]
  rfl

theorem not_isDigit_of_isWordStart {c : Char} (start : isWordStart c = true) :
    Numeral.isDigit c = false := by
  have range := isWordStart_iff.mp start
  rw [← Bool.not_eq_true, isDigit_iff]
  omega

theorem read?_wordEnd (text : List Char) :
    wordEnd.read? text = if stops isWordPart text then some ((), text) else none := by
  rw [wordEnd, read?_absent]
  cases text with
  | nil => rfl
  | cons c text =>
      rw [read?_satisfying_cons, stops]
      cases isWordPart c <;> rfl

theorem read?_wordSign_eq_some_iff {spelling : String} {text rest : List Char} {a : Unit} :
    (wordSign spelling).read? text = some (a, rest) ↔
      text = spelling.toList ++ rest ∧ stops isWordPart rest = true := by
  rw [wordSign, read?_bind_eq_some_iff]
  simp only [read?_spelled_eq_some_iff, read?_wordEnd]
  constructor
  · rintro ⟨_, between, rfl, ended⟩
    split at ended
    · rename_i stop
      obtain ⟨_, rfl⟩ := Prod.mk.inj (Option.some.inj ended)
      exact ⟨rfl, stop⟩
    · contradiction
  · rintro ⟨rfl, stop⟩
    exact ⟨(), rest, rfl, if_pos stop⟩

theorem reserved_isWordPart : ∀ word ∈ reservedWords, ∀ c ∈ word.toList, isWordPart c = true := by
  have all : ∀ word ∈ reservedWords, word.toList.all isWordPart = true := by decide
  exact fun word reserved => List.all_eq_true.mp (all word reserved)

theorem isIdentifier_iff {name : List Char} :
    isIdentifier name = true ↔ (∃ c tail, name = c :: tail ∧ isWordStart c = true ∧
      ∀ d ∈ tail, isWordPart d = true) ∧ ∀ word ∈ reservedWords, name ≠ word.toList := by
  have notReserved : reservedWords.contains (String.ofList name) = false ↔
      ∀ word ∈ reservedWords, name ≠ word.toList := by
    rw [← Bool.not_eq_true, List.contains_iff_mem]
    constructor
    · rintro absent word member rfl
      exact absent (by simpa using member)
    · intro each member
      exact each _ member (by simp)
  cases name with
  | nil => simp [isIdentifier]
  | cons c tail =>
      simp only [isIdentifier, Bool.and_eq_true, Bool.not_eq_eq_eq_not, Bool.not_true, notReserved,
        List.all_eq_true]
      refine and_congr_left fun _ => ?_
      constructor
      · rintro ⟨start, all⟩
        exact ⟨c, tail, rfl, start, all⟩
      · rintro ⟨_, _, ⟨⟩, start, all⟩
        exact ⟨start, all⟩

theorem isWordPart_of_isIdentifier {name : List Char} (identifies : isIdentifier name = true) :
    ∀ c ∈ name, isWordPart c = true := by
  obtain ⟨⟨c, tail, rfl, start, all⟩, _⟩ := isIdentifier_iff.mp identifies
  exact List.forall_mem_cons.mpr ⟨isWordPart_of_isWordStart start, all⟩

/-- Whether a text begins with a reserved word. -/
theorem isSome_read?_reserved (text : List Char) :
    ((firstOf (reservedWords.map wordSign)).read? text).isSome = true ↔
      ∃ word ∈ reservedWords, ∃ left, text = word.toList ++ left ∧
        stops isWordPart left = true := by
  rw [isSome_read?_firstOf]
  constructor
  · rintro ⟨rule, member, found⟩
    obtain ⟨word, reserved, rfl⟩ := List.mem_map.mp member
    obtain ⟨⟨_, left⟩, found⟩ := Option.isSome_iff_exists.mp found
    exact ⟨word, reserved, left, read?_wordSign_eq_some_iff.mp found⟩
  · rintro ⟨word, reserved, left, same⟩
    refine ⟨wordSign word, List.mem_map_of_mem reserved, ?_⟩
    rw [(read?_wordSign_eq_some_iff (a := ())).mpr same, Option.isSome_some]

/-- The characters of an identifier. -/
theorem read?_identifierText_eq_some_iff {text rest : List Char} :
    identifierText.read? text = some ((), rest) ↔
      ∃ name, text = name ++ rest ∧ isIdentifier name = true ∧ stops isWordPart rest = true := by
  have runRead : identifierText.read? text = some ((), rest) ↔
      (¬∃ word ∈ reservedWords, ∃ left, text = word.toList ++ left ∧
        stops isWordPart left = true) ∧
      ∃ c tail, text = c :: tail ++ rest ∧ isWordStart c = true ∧
        (∀ d ∈ tail, isWordPart d = true) ∧ stops isWordPart rest = true := by
    rw [← isSome_read?_reserved, ← read?_run_eq_some_iff, identifierText, bind_eq, read?_bind,
      read?_absent]
    by_cases sign : ((firstOf (reservedWords.map wordSign)).read? text).isSome = true
    · simp [sign]
    · rw [if_neg sign, Option.bind_some, and_iff_right sign]
      rfl
  rw [runRead]
  constructor
  · rintro ⟨notSign, c, tail, rfl, start, all, stop⟩
    refine ⟨c :: tail, rfl, isIdentifier_iff.mpr ⟨⟨c, tail, rfl, start, all⟩, ?_⟩, stop⟩
    intro word member same
    exact notSign ⟨word, member, rest, by rw [same], stop⟩
  · rintro ⟨name, rfl, identifies, stop⟩
    obtain ⟨⟨c, tail, rfl, start, all⟩, notReserved⟩ := isIdentifier_iff.mp identifies
    refine ⟨?_, c, tail, rfl, start, all, stop⟩
    rintro ⟨word, member, left, same, stopLeft⟩
    exact notReserved word member (run_unique (isWordPart_of_isIdentifier identifies) stop
      (reserved_isWordPart word member) stopLeft same).1

/-- An identifier is a word that is not reserved. -/
theorem read?_identifier_eq_some_iff {text name rest : List Char} :
    identifier.read? text = some (name, rest) ↔
      text = name ++ rest ∧ isIdentifier name = true ∧ stops isWordPart rest = true := by
  have same (text : List Char) :
      (orElse (quiet identifierText) (expect "identifier")).read? text =
        identifierText.read? text := by
    rw [read?_orElse, read?_quiet, read?_expect, Option.or_none]
  rw [identifier, read?_matched_eq_some_iff, same, read?_identifierText_eq_some_iff]
  · constructor
    · rintro ⟨⟨other, whole, identifies, stop⟩, rfl⟩
      rw [List.append_cancel_right whole]
      exact ⟨rfl, identifies, stop⟩
    · rintro ⟨rfl, identifies, stop⟩
      exact ⟨⟨name, rfl, identifies, stop⟩, rfl⟩
  · intro text rest found
    rw [same, read?_identifierText_eq_some_iff] at found
    obtain ⟨name, rfl, _⟩ := found
    exact List.suffix_append name rest

/-! ## Numbers -/

theorem unsigned?_eq_some_iff {digits : List Char} {id : Nat} :
    Numeral.unsigned? digits = some id ↔ (digits ≠ [] ∧ ∀ c ∈ digits, Numeral.isDigit c = true) ∧
      Numeral.value digits = id ∧ id < Word.limit := by
  rw [Numeral.unsigned?]
  by_cases run : digits ≠ [] ∧ ∀ c ∈ digits, Numeral.isDigit c = true
  · have isRun : (digits.isEmpty || !digits.all Numeral.isDigit) = false := by
      simpa using run
    rw [isRun, if_neg Bool.false_ne_true, and_iff_right run]
    split
    · rename_i small
      constructor
      · rintro ⟨⟩
        exact ⟨rfl, small⟩
      · rintro ⟨rfl, _⟩
        rfl
    · rename_i large
      simp only [reduceCtorEq, false_iff]
      rintro ⟨rfl, small⟩
      exact large small
  · have notRun : (digits.isEmpty || !digits.all Numeral.isDigit) = true := by
      rw [← Bool.not_eq_false]
      exact mt (by simp) run
    simp only [notRun, if_true, reduceCtorEq, false_iff]
    exact fun read => run read.1

theorem isDigit_of_isDigit {c : Char} (digit : c.isDigit = true) : Numeral.isDigit c = true := by
  simpa [Numeral.isDigit, Char.isDigit, Char.le_def] using digit

/-- The digits of a word stand for it. -/
theorem unsigned?_digits {id : Nat} (small : id < Word.limit) :
    Numeral.unsigned? (Numeral.digits id) = some id := by
  refine unsigned?_eq_some_iff.mpr ⟨⟨Nat.toDigits_ne_nil, fun c member => ?_⟩, ?_, small⟩
  · exact isDigit_of_isDigit (Nat.isDigit_of_mem_toDigits (by decide) (by decide) member)
  · rw [Numeral.value, ← Nat.ofDigitChars_eq_foldl]
    exact Nat.ofDigitChars_ten_toDigits

/-- A number is a word made of digits that stands for a word of the machine. -/
theorem read?_numbered_eq_some_iff {text rest : List Char} {id : Nat} :
    numbered.read? text = some (id, rest) ↔ ∃ digits, text = digits ++ rest ∧
      Numeral.unsigned? digits = some id ∧ stops isWordPart rest = true := by
  have digitsRead (text rest : List Char) :
      (Rule.bind digit fun _ => many digit).read? text = some ((), rest) ↔
        ∃ digits, text = digits ++ rest ∧ (digits ≠ [] ∧ ∀ c ∈ digits, Numeral.isDigit c = true) ∧
          stops Numeral.isDigit rest = true := by
    rw [digit, read?_run_eq_some_iff]
    constructor
    · rintro ⟨c, tail, rfl, first, all, stop⟩
      exact ⟨c :: tail, rfl, ⟨nofun, List.forall_mem_cons.mpr ⟨first, all⟩⟩, stop⟩
    · rintro ⟨digits, rfl, ⟨some, all⟩, stop⟩
      obtain ⟨c, tail, rfl⟩ := List.exists_cons_of_ne_nil some
      obtain ⟨first, all⟩ := List.forall_mem_cons.mp all
      exact ⟨c, tail, rfl, first, all, stop⟩
  have leaves {text rest : List Char}
      (found : (Rule.bind digit fun _ => many digit).read? text = some ((), rest)) :
      rest <:+ text := by
    obtain ⟨digits, rfl, _⟩ := (digitsRead text rest).mp found
    exact List.suffix_append digits rest
  have ends {rest : List Char} (stop : stops isWordPart rest = true) :
      stops Numeral.isDigit rest = true :=
    stops_of_imp (fun c => isWordPart_of_isDigit) stop
  rw [numbered, read?_select_eq_some_iff]
  simp only [bind_eq, pure_eq, read?_bind_eq_some_iff, read?_matched_eq_some_iff leaves, digitsRead,
    read?_wordEnd, read?_pure, Option.some.injEq, Prod.mk.injEq]
  constructor
  · rintro ⟨_, ⟨digits, between, ⟨_, rfl⟩, _, left, ended, rfl, rfl⟩, isNumber⟩
    split at ended
    · rename_i stop
      obtain ⟨_, rfl⟩ := Prod.mk.inj (Option.some.inj ended)
      exact ⟨digits, rfl, isNumber, stop⟩
    · contradiction
  · rintro ⟨digits, rfl, isNumber, stop⟩
    have run := (unsigned?_eq_some_iff.mp isNumber).1
    exact ⟨digits, ⟨digits, rest, ⟨⟨digits, rfl, run, ends stop⟩, rfl⟩, (), rest, if_pos stop,
      rfl, rfl⟩, isNumber⟩

/-! ## Groups -/

/-- The number of open parentheses behind a character; none if it closes one that is not open. -/
def nest (depth : Nat) (c : Char) : Option Nat :=
  if c = '(' then some (depth + 1)
  else if c = ')' then if depth = 0 then none else some (depth - 1)
  else some depth

/-- Every parenthesis of a text is closed in it, and none is closed that is not opened in it. -/
def IsBalanced (text : List Char) : Prop :=
  text.foldlM nest 0 = some 0

/-- A text that begins with a parenthesis and ends with the one that closes it. -/
def IsGroup (text : List Char) : Prop :=
  ∃ inner, text = '(' :: inner ++ [')'] ∧ IsBalanced inner

theorem nest_of_ne {c : Char} (opens : c ≠ '(') (closes : c ≠ ')') (depth : Nat) :
    nest depth c = some depth := by
  rw [nest, if_neg opens, if_neg closes]

theorem isBalanced_of_ne {text : List Char} (plain : ∀ c ∈ text, c ≠ '(' ∧ c ≠ ')') :
    IsBalanced text := by
  induction text with
  | nil => rfl
  | cons c text ih =>
      obtain ⟨⟨opens, closes⟩, plain⟩ := List.forall_mem_cons.mp plain
      rw [IsBalanced, List.foldlM_cons, nest_of_ne opens closes]
      exact ih plain

theorem IsBalanced.append {front back : List Char} (isFront : IsBalanced front)
    (isBack : IsBalanced back) : IsBalanced (front ++ back) := by
  rw [IsBalanced, List.foldlM_append, isFront]
  exact isBack

/-- What is balanced is balanced inside other parentheses. -/
theorem IsBalanced.foldlM_nest {text : List Char} (isBalanced : IsBalanced text) (depth : Nat) :
    text.foldlM nest depth = some depth := by
  have shifted {start last : Nat} (text : List Char) (nested : text.foldlM nest start = some last) :
      text.foldlM nest (start + depth) = some (last + depth) := by
    induction text generalizing start with
    | nil =>
        obtain rfl := Option.some.inj nested
        rfl
    | cons c text ih =>
        rw [List.foldlM_cons, Option.bind_eq_bind, Option.bind_eq_some_iff] at nested ⊢
        obtain ⟨deeper, stepped, nested⟩ := nested
        refine ⟨deeper + depth, ?_, ih nested⟩
        unfold nest at stepped ⊢
        grind
  simpa using shifted text isBalanced

theorem IsGroup.isBalanced {text : List Char} (isGroup : IsGroup text) : IsBalanced text := by
  obtain ⟨inner, rfl, isBalanced⟩ := isGroup
  rw [IsBalanced, List.foldlM_append]
  show (inner.foldlM nest 1).bind (fun depth => [')'].foldlM nest depth) = some 0
  rw [isBalanced.foldlM_nest]
  rfl

theorem enclosedFrom_cons (depth before : Nat) (c : Char) (text : List Char) :
    enclosedFrom depth before (c :: text) =
      match nest depth c with
      | none => before
      | some depth => enclosedFrom depth (before + 1) text := by
  unfold nest
  by_cases opens : c = '('
  · simp [enclosedFrom, opens]
  by_cases closes : c = ')'
  · cases depth <;> simp [enclosedFrom, closes]
  · simp [enclosedFrom, opens, closes]

theorem enclosedFrom_append {depth after : Nat} {front : List Char} (before : Nat)
    (opened : front.foldlM nest depth = some after) (back : List Char) :
    enclosedFrom depth before (front ++ back) =
      enclosedFrom after (before + front.length) back := by
  induction front generalizing depth before with
  | nil =>
      obtain rfl := Option.some.inj opened
      rfl
  | cons c front ih =>
      rw [List.foldlM_cons, Option.bind_eq_bind, Option.bind_eq_some_iff] at opened
      obtain ⟨deeper, nested, opened⟩ := opened
      rw [List.cons_append, enclosedFrom_cons, nested]
      dsimp only
      rw [ih _ opened, List.length_cons, Nat.add_right_comm, Nat.add_assoc]

/-- What is enclosed goes to the end of the text or to a parenthesis that closes one of those that
were open before. -/
theorem exists_enclosed (depth before : Nat) (text : List Char) :
    ∃ front back, text = front ++ back ∧
      enclosedFrom depth before text = before + front.length ∧
        (back = [] ∨ ∃ rest, back = ')' :: rest ∧ front.foldlM nest depth = some 0) := by
  induction text generalizing depth before with
  | nil => exact ⟨[], [], rfl, rfl, .inl rfl⟩
  | cons c text ih =>
      rw [enclosedFrom_cons]
      cases nested : nest depth c with
      | none =>
          have closing : c = ')' ∧ depth = 0 := by
            unfold nest at nested
            split at nested
            · contradiction
            split at nested
            · split at nested
              · exact ⟨‹_›, ‹_›⟩
              · contradiction
            · contradiction
          obtain ⟨rfl, rfl⟩ := closing
          exact ⟨[], ')' :: text, rfl, rfl, .inr ⟨text, rfl, rfl⟩⟩
      | some deeper =>
          obtain ⟨front, back, whole, count, ending⟩ := ih deeper (before + 1)
          refine ⟨c :: front, back, by rw [whole, List.cons_append], ?_, ?_⟩
          · dsimp only
            rw [count, List.length_cons, Nat.add_right_comm, Nat.add_assoc]
          · rwa [List.foldlM_cons, nested]

theorem read?_balanced (text : List Char) :
    balanced.read? text = some ((), text.drop (enclosedFrom 0 0 text)) :=
  rfl

theorem read?_group_eq_some_iff {text rest : List Char} :
    group.read? text = some ((), rest) ↔
      ∃ inner, text = '(' :: inner ++ ')' :: rest ∧ IsBalanced inner := by
  rw [group]
  simp only [bind_eq, read?_bind_eq_some_iff, read?_spelled_eq_some_iff, read?_balanced,
    Option.some.injEq, Prod.mk.injEq, true_and]
  constructor
  · rintro ⟨_, inside, rfl, _, _, rfl, closing⟩
    obtain ⟨front, back, whole, count, ending⟩ := exists_enclosed 0 0 inside
    rw [count, Nat.zero_add, whole, List.drop_left] at closing
    rcases ending with rfl | ⟨left, same, isBalanced⟩
    · nomatch closing
    · obtain rfl : left = rest := (List.cons.inj (same.symm.trans closing)).2
      exact ⟨front, by rw [whole, same]; rfl, isBalanced⟩
  · rintro ⟨inner, rfl, isBalanced⟩
    refine ⟨(), inner ++ ')' :: rest, rfl, (), _, rfl, ?_⟩
    have closed : enclosedFrom 0 inner.length (')' :: rest) = inner.length :=
      enclosedFrom_cons 0 inner.length ')' rest
    rw [enclosedFrom_append 0 isBalanced, Nat.zero_add, closed, List.drop_left]
    rfl

/-- A group is read up to the parenthesis that closes the one it begins with. -/
theorem read?_matched_group_eq_some_iff {text front rest : List Char} :
    (matched group).read? text = some (front, rest) ↔ text = front ++ rest ∧ IsGroup front := by
  rw [read?_matched_eq_some_iff, read?_group_eq_some_iff]
  · constructor
    · rintro ⟨⟨inner, same, isBalanced⟩, whole⟩
      obtain rfl : '(' :: inner ++ [')'] = front := by
        refine List.append_cancel_right (Eq.trans ?_ (same.symm.trans whole))
        rw [List.append_assoc, List.singleton_append]
      exact ⟨whole, inner, rfl, isBalanced⟩
    · rintro ⟨rfl, inner, rfl, isBalanced⟩
      exact ⟨⟨inner, by rw [List.append_assoc, List.singleton_append], isBalanced⟩, rfl⟩
  · intro text rest found
    obtain ⟨inner, rfl, _⟩ := read?_group_eq_some_iff.mp found
    exact ⟨'(' :: inner ++ [')'], by rw [List.append_assoc, List.singleton_append]⟩

/-- A text begins with one group at most. -/
theorem IsGroup.unique {front other rest left : List Char} (isFront : IsGroup front)
    (isOther : IsGroup other) (same : front ++ rest = other ++ left) : front = other := by
  have found := read?_matched_group_eq_some_iff.mpr ⟨same, isOther⟩
  rw [read?_matched_group_eq_some_iff.mpr ⟨rfl, isFront⟩] at found
  exact (Prod.mk.inj (Option.some.inj found)).1

/-! ## Names -/

theorem IsGroup.exists_cons {name : List Char} (isGroup : IsGroup name) :
    ∃ tail, name = '(' :: tail := by
  obtain ⟨inner, rfl, _⟩ := isGroup
  exact ⟨inner ++ [')'], rfl⟩

/-- A predicate is named by a group or by an identifier. -/
theorem read?_named_eq_some_iff {names : NameTable Nat} {text rest : List Char} {id : Nat} :
    (named names).read? text = some (id, rest) ↔
      ∃ name, text = name ++ rest ∧ names.get? (String.ofList name) = some id ∧
        (IsGroup name ∨ isIdentifier name = true ∧ stops isWordPart rest = true) := by
  rw [named, read?_orElse, Option.or_eq_some_iff]
  simp only [read?_select_eq_some_iff, read?_matched_group_eq_some_iff,
    read?_identifier_eq_some_iff]
  constructor
  · rintro (⟨name, ⟨whole, isGroup⟩, found⟩ | ⟨_, name, ⟨whole, identifies, stop⟩, found⟩)
    · exact ⟨name, whole, found, .inl isGroup⟩
    · exact ⟨name, whole, found, .inr ⟨identifies, stop⟩⟩
  · rintro ⟨name, whole, found, isGroup | ⟨identifies, stop⟩⟩
    · exact .inl ⟨name, ⟨whole, isGroup⟩, found⟩
    · refine .inr ⟨?_, name, ⟨whole, identifies, stop⟩, found⟩
      rw [Option.eq_none_iff_forall_ne_some]
      rintro ⟨other, left⟩ asGroup
      obtain ⟨full, asGroup, _⟩ := read?_select_eq_some_iff.mp asGroup
      obtain ⟨same, isGroup⟩ := read?_matched_group_eq_some_iff.mp asGroup
      obtain ⟨⟨c, tail, rfl, start, _⟩, _⟩ := isIdentifier_iff.mp identifies
      obtain ⟨inner, rfl⟩ := isGroup.exists_cons
      obtain rfl : c = '(' := (List.cons.inj (whole.symm.trans same)).1
      exact absurd start (by decide)

end Trivalent.Expr
