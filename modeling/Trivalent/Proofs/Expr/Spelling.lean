import Trivalent.Proofs.Expr.Folding
import Trivalent.Proofs.Expr.Words

/-!
# Spellings of expressions

The texts that stand for an expression, as a relation.  The expression is the syntax tree of the
text: nothing in it is folded.  Every sign may be spelled by its symbol or by its word, every
predicate by its number or by a name of it, spaces may stand between any two pieces, and any
operand may be put in parentheses, unless the predicates have the parenthesised text as a name.

A word needs an end: no character of an identifier may stand behind it.  A spelling therefore tells
whether its last piece is a word.
-/

namespace Trivalent.Expr

open Grammar (Rule stops stops_of_imp stops_dropWhile run_unique)
open Grammar.Rule

/-- What may stand behind a piece: anything, but no character of an identifier behind a word. -/
def Follows (isWord : Bool) (rest : List Char) : Prop :=
  isWord = true → stops isWordPart rest = true

theorem follows_nil (isWord : Bool) : Follows isWord [] :=
  fun _ => rfl

theorem follows_symbol (rest : List Char) : Follows false rest :=
  nofun

theorem follows_cons {isWord : Bool} {c : Char} (plain : isWordPart c = false) (rest : List Char) :
    Follows isWord (c :: rest) := by
  intro _
  rw [stops, plain, Bool.not_false]

/-- What follows a piece is told by the first character. -/
theorem Follows.append {isWord : Bool} {front : List Char} (follows : Follows isWord front)
    (some : front ≠ []) (rest : List Char) : Follows isWord (front ++ rest) := by
  obtain ⟨c, front, rfl⟩ := List.exists_cons_of_ne_nil some
  exact follows

/-! ## Signs -/

/-- A sign of the language. -/
structure Sign where
  /-- How it is spelled. -/
  text : String
  /-- Whether it is a word. -/
  isWord : Bool
  deriving DecidableEq

/-- The signs of negation. -/
def negationSigns : List Sign :=
  [⟨"~", false⟩, ⟨"!", false⟩, ⟨"not", true⟩]

/-- The signs of conjunction, if the unit is true, and else of disjunction. -/
def joiningSigns (unit : Bool) : List Sign :=
  if unit then [⟨"&", false⟩, ⟨"and", true⟩] else [⟨"|", false⟩, ⟨"or", true⟩]

/-- The signs of a constant. -/
def constantSigns (value : Bool) : List Sign :=
  if value then [⟨"$true", false⟩, ⟨"true", true⟩] else [⟨"$false", false⟩, ⟨"false", true⟩]

/-- All signs. -/
def signs : List Sign :=
  negationSigns ++ joiningSigns true ++ joiningSigns false ++ constantSigns true ++
    constantSigns false

theorem negationSigns_subset : negationSigns ⊆ signs := by
  decide

theorem joiningSigns_subset (unit : Bool) : joiningSigns unit ⊆ signs := by
  revert unit
  decide

theorem constantSigns_subset (value : Bool) : constantSigns value ⊆ signs := by
  revert value
  decide

namespace Sign

/-- A text begins with a sign. -/
structure Begins (sign : Sign) (text rest : List Char) : Prop where
  append : text = sign.text.toList ++ rest
  follows : Follows sign.isWord rest

/-- No sign begins with another one, so a text begins with one sign at most. -/
theorem Begins.unique {sign other : Sign} {text rest left : List Char} (isSign : sign ∈ signs)
    (isOther : other ∈ signs) (begins : sign.Begins text rest) (begins' : other.Begins text left) :
    sign = other := by
  have apart : ∀ a ∈ signs, ∀ b ∈ signs, a.text.toList <+: b.text.toList → a = b := by
    decide
  have front : sign.text.toList <+: text := ⟨rest, begins.append.symm⟩
  have front' : other.text.toList <+: text := ⟨left, begins'.append.symm⟩
  rcases List.prefix_or_prefix_of_prefix front front' with within | within
  · exact apart sign isSign other isOther within
  · exact (apart other isOther sign isSign within).symm

end Sign

/-! ## Characters -/

/-- The characters that no piece but a group has: blanks, parentheses and the comma between the
expressions of a choice. -/
def isPlain (c : Char) : Bool :=
  !Text.isBlank c && c != '(' && c != ')' && c != ','

theorem isPlain_of_isWordPart {c : Char} (part : isWordPart c = true) : isPlain c = true := by
  rw [isWordPart, Bool.or_eq_true, isWordStart_iff, isDigit_iff] at part
  have notBlank : Text.isBlank c = false := by
    simp only [Text.isBlank, Bool.or_eq_false_iff, Bool.and_eq_false_iff, decide_eq_false_iff_not,
      beq_eq_false_iff_ne]
    omega
  have differs {d : Char} (other : c.toNat ≠ d.toNat) : (c != d) = true := by
    rw [bne_iff_ne]
    rintro rfl
    exact other rfl
  rw [isPlain, notBlank, differs, differs, differs]
  · rfl
  all_goals
    simp only [Char.reduceToNat]
    omega

theorem isPlain_of_mem_sign {sign : Sign} (isSign : sign ∈ signs) :
    ∀ c ∈ sign.text.toList, isPlain c = true := by
  have all : ∀ sign ∈ signs, sign.text.toList.all isPlain = true := by decide
  exact List.all_eq_true.mp (all sign isSign)

theorem sign_ne_nil {sign : Sign} (isSign : sign ∈ signs) : sign.text.toList ≠ [] := by
  revert sign
  decide

theorem Follows.joined {isWord : Bool} {gap : List Char} {sign : Sign}
    (after : Follows isWord (gap ++ sign.text.toList)) (isSign : sign ∈ signs) (rest : List Char) :
    Follows isWord (gap ++ (sign.text.toList ++ rest)) := by
  rw [← List.append_assoc]
  exact after.append (List.append_ne_nil_of_right_ne_nil gap (sign_ne_nil isSign)) rest

theorem isPlain_iff {c : Char} : isPlain c = true ↔
    Text.isBlank c = false ∧ c ≠ '(' ∧ c ≠ ')' ∧ c ≠ ',' := by
  simp [isPlain, and_assoc]

theorem isBalanced_of_isPlain {text : List Char} (plain : ∀ c ∈ text, isPlain c = true) :
    IsBalanced text :=
  isBalanced_of_ne fun c member =>
    have ⟨_, opens, closes, _⟩ := isPlain_iff.mp (plain c member)
    ⟨opens, closes⟩

/-- Characters that may stand between pieces. -/
def IsSpace (text : List Char) : Prop :=
  ∀ c ∈ text, isGap c = true

theorem IsSpace.nil : IsSpace [] :=
  nofun

theorem isGap_iff {c : Char} : isGap c = true ↔ c = ' ' ∨ c = '\t' ∨ c = '\n' ∨ c = '\r' := by
  simp [isGap, or_assoc]

theorem isBlank_of_isGap {c : Char} (gap : isGap c = true) : Text.isBlank c = true := by
  rcases isGap_iff.mp gap with rfl | rfl | rfl | rfl <;> decide

theorem isWordPart_of_isGap {c : Char} (gap : isGap c = true) : isWordPart c = false := by
  rcases isGap_iff.mp gap with rfl | rfl | rfl | rfl <;> decide

theorem IsSpace.isBalanced {gap : List Char} (isSpace : IsSpace gap) : IsBalanced gap :=
  isBalanced_of_ne fun c member => by
    rcases isGap_iff.mp (isSpace c member) with rfl | rfl | rfl | rfl <;> decide

/-- A text that is not blank at its ends. -/
structure Firm (text : List Char) : Prop where
  first : ∃ c tail, text = c :: tail ∧ Text.isBlank c = false
  last : ∃ front c, text = front ++ [c] ∧ Text.isBlank c = false

theorem Firm.append {front back : List Char} (isFront : Firm front) (isBack : Firm back)
    (between : List Char) : Firm (front ++ (between ++ back)) := by
  obtain ⟨c, tail, rfl, solid⟩ := isFront.first
  obtain ⟨before, d, rfl, solid'⟩ := isBack.last
  exact ⟨⟨c, _, rfl, solid⟩, c :: tail ++ (between ++ before), d, by simp, solid'⟩

theorem firm_of_isPlain {text : List Char} (some : text ≠ [])
    (plain : ∀ c ∈ text, isPlain c = true) : Firm text := by
  have solid (c : Char) (member : c ∈ text) : Text.isBlank c = false :=
    (isPlain_iff.mp (plain c member)).1
  constructor
  · obtain ⟨c, tail, rfl⟩ := List.exists_cons_of_ne_nil some
    exact ⟨c, tail, rfl, solid c List.mem_cons_self⟩
  · refine ⟨text.dropLast, text.getLast some, (List.dropLast_append_getLast some).symm, ?_⟩
    exact solid _ (List.getLast_mem some)

theorem firm_of_group (inner : List Char) : Firm ('(' :: inner ++ [')']) :=
  ⟨⟨'(', inner ++ [')'], rfl, by decide⟩, '(' :: inner, ')', rfl, by decide⟩

theorem Firm.ne_nil {text : List Char} (firm : Firm text) : text ≠ [] := by
  obtain ⟨c, tail, rfl, _⟩ := firm.first
  exact List.cons_ne_nil c tail

theorem Firm.stops_isGap {text : List Char} (firm : Firm text) (rest : List Char) :
    stops isGap (text ++ rest) = true := by
  obtain ⟨c, tail, rfl, solid⟩ := firm.first
  rw [List.cons_append, stops, Bool.not_eq_true', ← Bool.not_eq_true]
  intro gap
  rw [isBlank_of_isGap gap] at solid
  contradiction

/-- Spaces around a text that is not blank at its ends are trimmed. -/
theorem Firm.trim_eq {text gap gap' : List Char} (firm : Firm text) (isSpace : IsSpace gap)
    (isSpace' : IsSpace gap') : Text.trim (gap ++ (text ++ gap')) = text := by
  have blank {gap : List Char} (isSpace : IsSpace gap) : ∀ c ∈ gap, Text.isBlank c = true :=
    fun c member => isBlank_of_isGap (isSpace c member)
  have front : stops Text.isBlank (text ++ gap') = true := by
    obtain ⟨c, tail, rfl, solid⟩ := firm.first
    rw [List.cons_append, stops, solid, Bool.not_false]
  have back : stops Text.isBlank text.reverse = true := by
    obtain ⟨before, c, rfl, solid⟩ := firm.last
    rw [List.reverse_append, List.reverse_singleton, List.singleton_append, stops, solid,
      Bool.not_false]
  rw [Text.trim, Grammar.dropWhile_run (blank isSpace) front, Text.dropEndWhile,
    List.reverse_append, Grammar.dropWhile_run _ back, List.reverse_reverse]
  exact fun c member => blank isSpace' c (List.mem_reverse.mp member)

/-! ## Words -/

/-- A word that is no sign. -/
structure IsWord (word : List Char) : Prop where
  some : word ≠ []
  all : ∀ c ∈ word, isWordPart c = true
  notReserved : ∀ sign ∈ reservedWords, word ≠ sign.toList

theorem isWord_of_isIdentifier {name : List Char} (identifies : isIdentifier name = true) :
    IsWord name := by
  obtain ⟨⟨c, tail, same, _⟩, notReserved⟩ := isIdentifier_iff.mp identifies
  refine ⟨?_, isWordPart_of_isIdentifier identifies, notReserved⟩
  rw [same]
  exact List.cons_ne_nil c tail

theorem isWord_of_unsigned? {digits : List Char} {id : Nat}
    (number : Numeral.unsigned? digits = some id) : IsWord digits := by
  obtain ⟨⟨some, all⟩, _⟩ := unsigned?_eq_some_iff.mp number
  refine ⟨some, fun c member => isWordPart_of_isDigit (all c member), ?_⟩
  have lettered : ∀ word ∈ reservedWords, word.toList.all Numeral.isDigit = false := by decide
  rintro word reserved rfl
  exact Bool.false_ne_true ((lettered word reserved).symm.trans (List.all_eq_true.mpr all))

theorem IsWord.isPlain {word : List Char} (isWord : IsWord word) :
    ∀ c ∈ word, isPlain c = true :=
  fun c member => isPlain_of_isWordPart (isWord.all c member)

/-- A word that is no sign does not begin with a reserved word that ends behind it. -/
theorem IsWord.append_ne {word rest left : List Char} (isWord : IsWord word)
    (follows : Follows true rest) {reserved : String} (isReserved : reserved ∈ reservedWords)
    (stop : stops isWordPart left = true) : word ++ rest ≠ reserved.toList ++ left := by
  intro same
  exact isWord.notReserved reserved isReserved (run_unique isWord.all (follows rfl)
    (reserved_isWordPart reserved isReserved) stop same).1

/-- A word that is no sign begins with none. -/
theorem IsWord.not_begins {word rest left : List Char} (isWord : IsWord word)
    (follows : Follows true rest) {sign : Sign} (isSign : sign ∈ signs) :
    ¬sign.Begins (word ++ rest) left := by
  have kinds : ∀ sign ∈ signs, (sign.isWord = true ∧ sign.text ∈ reservedWords) ∨
      (stops isWordPart sign.text.toList = true ∧ sign.text.toList ≠ []) := by
    decide
  intro begins
  rcases kinds sign isSign with ⟨spelledOut, reserved⟩ | ⟨symbol, some⟩
  · exact isWord.append_ne follows reserved (begins.follows spelledOut) begins.append
  · obtain ⟨c, tail, same⟩ := List.exists_cons_of_ne_nil some
    obtain ⟨d, tail', rfl⟩ := List.exists_cons_of_ne_nil isWord.some
    have whole := begins.append
    rw [same, List.cons_append, List.cons_append] at whole
    obtain rfl := (List.cons.inj whole).1
    rw [same, stops, isWord.all d List.mem_cons_self] at symbol
    contradiction

/-! ## Spellings -/

/-- What is spelled. -/
inductive Phrase where
  /-- An operand of negations and of conjunctions. -/
  | operand (e : Expr)
  /-- Operands joined by the sign of a unit. -/
  | chain (unit : Bool) (es : List Expr)
  /-- A conjunction of operands, if the unit is true, and else a disjunction of conjunctions. -/
  | layer (unit : Bool) (e : Expr)
  /-- A whole expression with spaces around it. -/
  | padded (e : Expr)

/-- What a chain of a unit joins. -/
def Phrase.link (unit : Bool) (e : Expr) : Phrase :=
  if unit then .operand e else .layer true e

theorem Phrase.link_ne_padded {unit : Bool} {e : Expr} (f : Expr) : link unit e ≠ .padded f := by
  cases unit <;> simp [link]

/-- The texts that spell a phrase when predicates have the given names, and whether they end with a
word. -/
inductive Spells (names : NameTable Nat) : Phrase → List Char → Bool → Prop where
  /-- A sign of a constant. -/
  | constant {value : Bool} {sign : Sign} : sign ∈ constantSigns value →
      Spells names (.operand (.literal value)) sign.text.toList sign.isWord
  /-- A conjunction or disjunction without operands, by a sign of its unit. -/
  | empty {unit : Bool} {sign : Sign} : sign ∈ constantSigns unit →
      Spells names (.operand (node unit [])) sign.text.toList sign.isWord
  /-- A predicate by its number. -/
  | number {digits : List Char} {id : Nat} : Numeral.unsigned? digits = some id →
      Spells names (.operand (.predicate id)) digits true
  /-- A predicate by a name that is an identifier. -/
  | identifier {name : List Char} {id : Nat} : isIdentifier name = true →
      names.get? (String.ofList name) = some id →
      Spells names (.operand (.predicate id)) name true
  /-- A predicate by a name that is a group. -/
  | fullName {name : List Char} {id : Nat} : IsGroup name →
      names.get? (String.ofList name) = some id →
      Spells names (.operand (.predicate id)) name false
  /-- A negation. -/
  | negation {sign : Sign} {gap body : List Char} {e : Expr} {isWord : Bool} :
      sign ∈ negationSigns → IsSpace gap → Spells names (.operand e) body isWord →
      Follows sign.isWord (gap ++ body) →
      Spells names (.operand (.not e)) (sign.text.toList ++ (gap ++ body)) isWord
  /-- An expression in parentheses that is no name. -/
  | group {body : List Char} {e : Expr} {isWord : Bool} : Spells names (.padded e) body isWord →
      names.get? (String.ofList ('(' :: body ++ [')'])) = none →
      Spells names (.operand e) ('(' :: body ++ [')']) false
  /-- The first operand of a chain. -/
  | first {unit : Bool} {text : List Char} {e : Expr} {isWord : Bool} :
      Spells names (.link unit e) text isWord → Spells names (.chain unit [e]) text isWord
  /-- One more operand of a chain. -/
  | more {unit : Bool} {sign : Sign} {front gap gap' back : List Char} {es : List Expr} {e : Expr}
      {isWord isWord' : Bool} : Spells names (.chain unit es) front isWord → IsSpace gap →
      sign ∈ joiningSigns unit → IsSpace gap' → Spells names (.link unit e) back isWord' →
      Follows isWord (gap ++ sign.text.toList) → Follows sign.isWord (gap' ++ back) →
      Spells names (.chain unit (es ++ [e]))
        (front ++ (gap ++ (sign.text.toList ++ (gap' ++ back)))) isWord'
  /-- The conjunction or disjunction of the operands of a chain. -/
  | joined {unit : Bool} {text : List Char} {es : List Expr} {isWord : Bool} :
      Spells names (.chain unit es) text isWord →
      Spells names (.layer unit (node unit es)) text isWord
  /-- What binds more tightly. -/
  | lift {unit : Bool} {text : List Char} {e : Expr} {isWord : Bool} :
      Spells names (.link unit e) text isWord → Spells names (.layer unit e) text isWord
  /-- An expression with spaces around it. -/
  | padded {gap gap' body : List Char} {e : Expr} {isWord : Bool} : IsSpace gap →
      Spells names (.layer false e) body isWord → IsSpace gap' →
      Spells names (.padded e) (gap ++ (body ++ gap')) isWord

namespace Spells

variable {names : NameTable Nat} {p : Phrase} {text : List Char} {isWord : Bool}

/-- An operand is a conjunction of its own. -/
theorem conjunction {e : Expr} (spells : Spells names (.operand e) text isWord) :
    Spells names (.layer true e) text isWord :=
  lift spells

/-- A conjunction is a disjunction of its own. -/
theorem disjunction {e : Expr} (spells : Spells names (.layer true e) text isWord) :
    Spells names (.layer false e) text isWord :=
  lift spells

/-- Parentheses are balanced in spellings. -/
theorem isBalanced (spells : Spells names p text isWord) : IsBalanced text := by
  induction spells with
  | constant isSign | empty isSign =>
      exact isBalanced_of_isPlain (isPlain_of_mem_sign (constantSigns_subset _ isSign))
  | number isNumber => exact isBalanced_of_isPlain (isWord_of_unsigned? isNumber).isPlain
  | identifier identifies =>
      exact isBalanced_of_isPlain (isWord_of_isIdentifier identifies).isPlain
  | fullName isGroup => exact isGroup.isBalanced
  | negation isSign isSpace _ _ body =>
      have sign := isBalanced_of_isPlain (isPlain_of_mem_sign (negationSigns_subset isSign))
      exact sign.append (isSpace.isBalanced.append body)
  | group _ _ body => exact IsGroup.isBalanced ⟨_, rfl, body⟩
  | first _ ih | joined _ ih | lift _ ih => exact ih
  | @more unit _ _ _ _ _ _ _ _ _ _ isSpace isSign isSpace' _ _ _ front back =>
      have sign := isBalanced_of_isPlain (isPlain_of_mem_sign (joiningSigns_subset unit isSign))
      exact front.append (isSpace.isBalanced.append
        (sign.append (isSpace'.isBalanced.append back)))
  | padded isSpace _ isSpace' body =>
      exact isSpace.isBalanced.append (body.append isSpace'.isBalanced)

theorem isGroup_of_padded {e : Expr} (spells : Spells names (.padded e) text isWord) :
    IsGroup ('(' :: text ++ [')']) :=
  ⟨text, rfl, spells.isBalanced⟩

/-- A spelling without spaces around it is not blank at its ends. -/
theorem firm (spells : Spells names p text isWord) (bare : ∀ e, p ≠ .padded e) : Firm text := by
  have sign {sign : Sign} (isSign : sign ∈ signs) : Firm sign.text.toList :=
    firm_of_isPlain (sign_ne_nil isSign) (isPlain_of_mem_sign isSign)
  induction spells with
  | constant isSign | empty isSign => exact sign (constantSigns_subset _ isSign)
  | number isNumber =>
      have word := isWord_of_unsigned? isNumber
      exact firm_of_isPlain word.some word.isPlain
  | identifier identifies =>
      have word := isWord_of_isIdentifier identifies
      exact firm_of_isPlain word.some word.isPlain
  | fullName isGroup =>
      obtain ⟨inner, rfl, _⟩ := isGroup
      exact firm_of_group inner
  | negation isSign _ _ _ body =>
      exact (sign (negationSigns_subset isSign)).append (body nofun) _
  | group => exact firm_of_group _
  | first _ ih | lift _ ih => exact ih Phrase.link_ne_padded
  | joined _ ih => exact ih nofun
  | @more unit joining _ gap gap' back _ _ _ _ _ _ _ _ _ _ _ isFront isBack =>
      have whole := (isFront nofun).append (isBack Phrase.link_ne_padded)
        (gap ++ (joining.text.toList ++ gap'))
      simpa only [List.append_assoc] using whole
  | @padded _ _ _ e => exact absurd rfl (bare e)

/-- No spelling begins with the word of choices, unless more letters or digits follow. -/
theorem append_ne (spells : Spells names p text isWord) (bare : ∀ e, p ≠ .padded e)
    {rest left : List Char} (follows : Follows isWord rest)
    (stop : stops isWordPart left = true) : text ++ rest ≠ "choice".toList ++ left := by
  have reserved : "choice" ∈ reservedWords := by decide
  have sign {sign : Sign} (isSign : sign ∈ signs) (rest : List Char) :
      sign.text.toList ++ rest ≠ "choice".toList ++ left := by
    have other : ∀ sign ∈ signs, sign.text.toList.head? ≠ some 'c' := by decide
    obtain ⟨c, tail, same⟩ := List.exists_cons_of_ne_nil (sign_ne_nil isSign)
    have first := other sign isSign
    intro whole
    rw [same] at first whole
    obtain rfl := (List.cons.inj whole).1
    exact first rfl
  have group {inner rest : List Char} :
      '(' :: inner ++ rest ≠ "choice".toList ++ left := by
    intro whole
    nomatch (List.cons.inj whole).1
  induction spells generalizing rest with
  | constant isSign | empty isSign => exact sign (constantSigns_subset _ isSign) rest
  | number isNumber => exact (isWord_of_unsigned? isNumber).append_ne follows reserved stop
  | identifier identifies =>
      exact (isWord_of_isIdentifier identifies).append_ne follows reserved stop
  | fullName isGroup =>
      obtain ⟨tail, rfl⟩ := isGroup.exists_cons
      exact group
  | negation isSign =>
      rw [List.append_assoc]
      exact sign (negationSigns_subset isSign) _
  | group =>
      rw [List.append_assoc]
      exact group
  | first _ ih | lift _ ih => exact ih Phrase.link_ne_padded follows
  | joined _ ih => exact ih nofun follows
  | @more unit _ _ _ gap' back _ _ _ _ _ _ isSign _ _ after _ isFront _ =>
      rw [List.append_assoc]
      refine isFront nofun ?_
      simpa only [List.append_assoc] using
        after.joined (joiningSigns_subset unit isSign) (gap' ++ (back ++ rest))
  | @padded _ _ _ e => exact absurd rfl (bare e)

end Spells

end Trivalent.Expr
