import Trivalent.Proofs.Expr.Spelling

/-!
# Rules of expressions

What the rules for signs, operands and chains read from a text, each in terms of the rules that it
is made of.  No sign begins with another one, and what is no sign begins with none, so of the
alternatives for an operand only one can read a text; but a parenthesised text may be a name.
-/

namespace Trivalent.Expr

open Grammar (Rule stops stops_of_imp stops_dropWhile dropWhile_run run_unique)
open Grammar.Rule

/-! ## Signs -/

/-- The rule that reads a sign. -/
def Sign.rule (sign : Sign) : Rule Unit :=
  if sign.isWord then wordSign sign.text else spelled sign.text

theorem read?_rule_eq_some_iff {sign : Sign} {text rest : List Char} {a : Unit} :
    sign.rule.read? text = some (a, rest) ↔ sign.Begins text rest := by
  rw [Sign.rule]
  split
  · rename_i spelledOut
    rw [read?_wordSign_eq_some_iff]
    exact ⟨fun ⟨same, stop⟩ => ⟨same, fun _ => stop⟩,
      fun begins => ⟨begins.append, begins.follows spelledOut⟩⟩
  · rename_i symbol
    rw [read?_spelled_eq_some_iff]
    exact ⟨fun same => ⟨same, fun spelledOut => absurd spelledOut symbol⟩, Sign.Begins.append⟩

/-- Of several signs the one is read that the text begins with. -/
theorem read?_firstOf_rule_eq_some_iff {some : List Sign} (subset : some ⊆ signs)
    {text rest : List Char} {a : Unit} :
    (firstOf (some.map Sign.rule)).read? text = .some (a, rest) ↔
      ∃ sign ∈ some, sign.Begins text rest := by
  induction some with
  | nil => simp
  | cons sign others ih =>
      obtain ⟨isSign, subset⟩ := List.cons_subset.mp subset
      rw [List.map_cons, read?_firstOf_cons, Option.or_eq_some_iff, ih subset,
        read?_rule_eq_some_iff]
      constructor
      · rintro (begins | ⟨_, other, member, begins⟩)
        · exact ⟨sign, List.mem_cons_self, begins⟩
        · exact ⟨other, List.mem_cons_of_mem _ member, begins⟩
      · rintro ⟨other, member, begins⟩
        by_cases found : ∃ left, sign.Begins text left
        · obtain ⟨left, begins'⟩ := found
          obtain rfl := begins.unique (List.mem_cons.mp member |>.elim (· ▸ isSign) (subset ·))
            isSign begins'
          exact .inl begins
        · refine .inr ⟨?_, other, ?_, begins⟩
          · rw [Option.eq_none_iff_forall_ne_some]
            rintro ⟨_, left⟩ read
            exact found ⟨left, read?_rule_eq_some_iff.mp read⟩
          · rcases List.mem_cons.mp member with rfl | member
            · exact absurd ⟨rest, begins⟩ found
            · exact member

theorem read?_notSign_eq_some_iff {text rest : List Char} {a : Unit} :
    notSign.read? text = some (a, rest) ↔ ∃ sign ∈ negationSigns, sign.Begins text rest :=
  read?_firstOf_rule_eq_some_iff negationSigns_subset

theorem read?_symbol_or_word_eq_some_iff {symbol word : String} {text rest : List Char} {a : Unit}
    (subset : [⟨symbol, false⟩, ⟨word, true⟩] ⊆ signs) :
    (orElse (spelled symbol) (wordSign word)).read? text = some (a, rest) ↔
      ∃ sign ∈ [(⟨symbol, false⟩ : Sign), ⟨word, true⟩], sign.Begins text rest := by
  rw [← read?_firstOf_rule_eq_some_iff subset]
  show _ ↔ (firstOf [spelled symbol, wordSign word]).read? text = some (a, rest)
  simp [read?_orElse]

/-- The sign of conjunction, if the unit is true, and else of disjunction. -/
def joinSign (unit : Bool) : Rule Unit :=
  if unit then andSign else orSign

theorem read?_joinSign_eq_some_iff {unit : Bool} {text rest : List Char} {a : Unit} :
    (joinSign unit).read? text = some (a, rest) ↔
      ∃ sign ∈ joiningSigns unit, sign.Begins text rest := by
  cases unit with
  | true => exact read?_symbol_or_word_eq_some_iff (joiningSigns_subset true)
  | false => exact read?_symbol_or_word_eq_some_iff (joiningSigns_subset false)

theorem read?_truthValue_eq_some_iff {text rest : List Char} {value : Bool} :
    truthValue.read? text = some (value, rest) ↔
      ∃ sign ∈ constantSigns value, sign.Begins text rest := by
  have isTrue {rest : List Char} {a : Unit} :
      (orElse (spelled "$true") (wordSign "true")).read? text = some (a, rest) ↔
        ∃ sign ∈ constantSigns true, sign.Begins text rest :=
    read?_symbol_or_word_eq_some_iff (constantSigns_subset true)
  have isFalse {rest : List Char} {a : Unit} :
      (orElse (spelled "$false") (wordSign "false")).read? text = some (a, rest) ↔
        ∃ sign ∈ constantSigns false, sign.Begins text rest :=
    read?_symbol_or_word_eq_some_iff (constantSigns_subset false)
  rw [truthValue, read?_orElse, Option.or_eq_some_iff]
  simp only [read?_bind_pure_eq_some_iff, isTrue, isFalse]
  constructor
  · rintro (⟨rfl, _, found⟩ | ⟨_, rfl, _, found⟩)
    · exact found
    · exact found
  · rintro ⟨sign, member, begins⟩
    cases value with
    | true => exact .inl ⟨rfl, (), sign, member, begins⟩
    | false =>
        refine .inr ⟨?_, rfl, (), sign, member, begins⟩
        have apart : ∀ sign ∈ constantSigns true, sign ∉ constantSigns false := by decide
        rw [Option.eq_none_iff_forall_ne_some]
        rintro ⟨_, left⟩ found
        obtain ⟨_, _, found⟩ := read?_bind_pure_eq_some_iff.mp found
        obtain ⟨other, isOther, begins'⟩ := isTrue.mp found
        obtain rfl := begins.unique (constantSigns_subset false member)
          (constantSigns_subset true isOther) begins'
        exact apart sign isOther member

/-! ## Operands and layers -/

/-- What a chain of a unit joins, made of operands. -/
def linkRule (unit : Bool) (operand : Rule Expr) : Rule Expr :=
  if unit then operand else chain andSign conj operand

/-- A layer of a unit, made of operands. -/
def layerRule (unit : Bool) (operand : Rule Expr) : Rule Expr :=
  if unit then chain andSign conj operand else disjunction operand

theorem linkRule_false (operand : Rule Expr) : linkRule false operand = layerRule true operand := by
  rw [linkRule, layerRule, if_neg Bool.false_ne_true, if_pos rfl]

/-- One more operand of a chain. -/
def step (unit : Bool) (operand : Rule Expr) (before : Expr) : Rule Expr := do
  blanks
  joinSign unit
  blanks
  let next ← operand
  pure (join unit [before, next])

theorem layerRule_eq (unit : Bool) (operand : Rule Expr) :
    layerRule unit operand =
      Rule.bind (linkRule unit operand) (grow (step unit (linkRule unit operand))) := by
  cases unit <;> rfl

theorem read?_step_eq_some_iff {unit : Bool} {operand : Rule Expr} {before after : Expr}
    {text rest : List Char} :
    (step unit operand before).read? text = some (after, rest) ↔
      ∃ sign ∈ joiningSigns unit, ∃ left, sign.Begins (text.dropWhile isGap) left ∧
        ∃ next, operand.read? (left.dropWhile isGap) = some (next, rest) ∧
          after = join unit [before, next] := by
  simp only [step, bind_eq, pure_eq, read?_bind_eq_some_iff, read?_blanks, read?_pure,
    read?_joinSign_eq_some_iff, Option.some.injEq, Prod.mk.injEq, true_and]
  constructor
  · rintro ⟨_, _, rfl, _, left, ⟨sign, isSign, begins⟩, _, _, rfl, next, _, found, rfl, rfl⟩
    exact ⟨sign, isSign, left, begins, next, found, rfl⟩
  · rintro ⟨sign, isSign, left, begins, next, found, rfl⟩
    exact ⟨(), _, rfl, (), left, ⟨sign, isSign, begins⟩, (), _, rfl, next, rest, found, rfl, rfl⟩

/-- A negated operand. -/
def negated (operand : Rule Expr) : Rule Expr := do
  notSign
  blanks
  let body ← operand
  pure (neg body)

/-- A parenthesised expression made of operands. -/
def parenthesised (operand : Rule Expr) : Rule Expr := do
  spelled "("
  blanks
  let body ← disjunction operand
  blanks
  spelled ")"
  pure body

theorem operandTo_succ (names : NameTable Nat) (depth : Nat) :
    operandTo names (depth + 1) = firstOf [
      negated (operandTo names depth),
      Rule.bind truthValue fun value => Rule.pure (.literal value),
      Rule.bind numbered fun id => Rule.pure (.predicate id),
      Rule.bind (named names) fun id => Rule.pure (.predicate id),
      parenthesised (operandTo names depth)] :=
  rfl

theorem read?_negated_eq_some_iff {operand : Rule Expr} {text rest : List Char} {e : Expr} :
    (negated operand).read? text = some (e, rest) ↔
      ∃ sign ∈ negationSigns, ∃ left, sign.Begins text left ∧
        ∃ body, operand.read? (left.dropWhile isGap) = some (body, rest) ∧ e = neg body := by
  simp only [negated, bind_eq, pure_eq, read?_bind_eq_some_iff, read?_blanks, read?_pure,
    read?_notSign_eq_some_iff, Option.some.injEq, Prod.mk.injEq, true_and]
  constructor
  · rintro ⟨_, left, ⟨sign, isSign, begins⟩, _, _, rfl, body, _, found, rfl, rfl⟩
    exact ⟨sign, isSign, left, begins, body, found, rfl⟩
  · rintro ⟨sign, isSign, left, begins, body, found, rfl⟩
    exact ⟨(), left, ⟨sign, isSign, begins⟩, (), _, rfl, body, rest, found, rfl, rfl⟩

theorem read?_parenthesised_eq_some_iff {operand : Rule Expr} {text rest : List Char} {e : Expr} :
    (parenthesised operand).read? text = some (e, rest) ↔
      ∃ inside behind, text = '(' :: inside ∧
        (disjunction operand).read? (inside.dropWhile isGap) = some (e, behind) ∧
          behind.dropWhile isGap = ')' :: rest := by
  simp only [parenthesised, bind_eq, pure_eq, read?_bind_eq_some_iff, read?_blanks, read?_pure,
    read?_spelled_eq_some_iff, Option.some.injEq, Prod.mk.injEq, true_and]
  constructor
  · rintro ⟨_, inside, rfl, _, _, rfl, body, behind, found, _, _, rfl, _, _, closed, rfl, rfl⟩
    exact ⟨inside, behind, rfl, found, closed⟩
  · rintro ⟨inside, behind, rfl, found, closed⟩
    exact ⟨(), inside, rfl, (), _, rfl, e, behind, found, (), _, rfl, (), rest, closed, rfl, rfl⟩

/-! ## Which operand is read -/

section Operands

variable {names : NameTable Nat} {depth : Nat} {text rest : List Char} {id : Nat}

theorem read?_operandTo_of_no_sign (absent : ∀ sign ∈ signs, ∀ left, ¬sign.Begins text left) :
    (operandTo names (depth + 1)).read? text =
      ((Rule.bind numbered fun id => Rule.pure (.predicate id)).read? text).or
        (((Rule.bind (named names) fun id => Rule.pure (.predicate id)).read? text).or
          ((parenthesised (operandTo names depth)).read? text)) := by
  have noNegation : (negated (operandTo names depth)).read? text = none := by
    rw [Option.eq_none_iff_forall_ne_some]
    rintro ⟨e, rest⟩ found
    obtain ⟨sign, isSign, left, begins, _⟩ := read?_negated_eq_some_iff.mp found
    exact absent sign (negationSigns_subset isSign) left begins
  have noConstant : truthValue.read? text = none := by
    rw [Option.eq_none_iff_forall_ne_some]
    rintro ⟨value, rest⟩ found
    obtain ⟨sign, isSign, begins⟩ := read?_truthValue_eq_some_iff.mp found
    exact absent sign (constantSigns_subset value isSign) rest begins
  simp only [operandTo_succ, read?_firstOf_cons, noNegation, read?_bind_of_none noConstant,
    Option.none_or, read?_firstOf_nil, Option.or_none]

theorem read?_operandTo_constant {value : Bool} {sign : Sign} (isSign : sign ∈ constantSigns value)
    (follows : Follows sign.isWord rest) :
    (operandTo names (depth + 1)).read? (sign.text.toList ++ rest) =
      some (.literal value, rest) := by
  have known := constantSigns_subset value isSign
  have noNegation : (negated (operandTo names depth)).read? (sign.text.toList ++ rest) = none := by
    rw [Option.eq_none_iff_forall_ne_some]
    rintro ⟨e, left⟩ found
    obtain ⟨other, isOther, behind, begins, _⟩ := read?_negated_eq_some_iff.mp found
    obtain rfl := begins.unique (negationSigns_subset isOther) known ⟨rfl, follows⟩
    have apart : ∀ value, ∀ sign ∈ negationSigns, sign ∉ constantSigns value := by decide
    exact apart value other isOther isSign
  have found := read?_truthValue_eq_some_iff.mpr ⟨sign, isSign, ⟨rfl, follows⟩⟩
  rw [operandTo_succ, read?_firstOf_cons, noNegation, Option.none_or, read?_firstOf_cons,
    read?_bind_of_some found, read?_pure, Option.some_or]

theorem read?_operandTo_negated {sign : Sign} {gap : List Char} {e : Expr}
    (isSign : sign ∈ negationSigns) (isSpace : IsSpace gap)
    (follows : Follows sign.isWord (gap ++ text)) (stop : stops isGap text = true)
    (read : (operandTo names depth).read? text = some (e, rest)) :
    (operandTo names (depth + 1)).read? (sign.text.toList ++ (gap ++ text)) =
      some (neg e, rest) := by
  have found : (negated (operandTo names depth)).read? (sign.text.toList ++ (gap ++ text)) =
      some (neg e, rest) := by
    refine read?_negated_eq_some_iff.mpr ⟨sign, isSign, _, ⟨rfl, follows⟩, e, ?_, rfl⟩
    rw [dropWhile_run isSpace stop, read]
  rw [operandTo_succ, read?_firstOf_cons, found, Option.some_or]

theorem not_begins_of_not_isPlain {c : Char} (other : isPlain c = false) {sign : Sign}
    (isSign : sign ∈ signs) : ¬sign.Begins (c :: text) rest := by
  intro begins
  obtain ⟨d, tail, same⟩ := List.exists_cons_of_ne_nil (sign_ne_nil isSign)
  have whole := begins.append
  rw [same] at whole
  obtain rfl := (List.cons.inj whole).1
  have plain := isPlain_of_mem_sign isSign c (by rw [same]; exact List.mem_cons_self)
  rw [other] at plain
  contradiction

/-- A number begins with a digit. -/
theorem read?_numbered_of_not_isDigit {c : Char} (other : Numeral.isDigit c = false) :
    numbered.read? (c :: text) = none := by
  rw [Option.eq_none_iff_forall_ne_some]
  rintro ⟨id, rest⟩ found
  obtain ⟨digits, whole, number, _⟩ := read?_numbered_eq_some_iff.mp found
  obtain ⟨⟨some, all⟩, _⟩ := unsigned?_eq_some_iff.mp number
  obtain ⟨d, tail, rfl⟩ := List.exists_cons_of_ne_nil some
  obtain rfl := (List.cons.inj whole).1
  rw [all c List.mem_cons_self] at other
  contradiction

theorem read?_operandTo_number {digits : List Char} (number : Numeral.unsigned? digits = some id)
    (follows : Follows true rest) :
    (operandTo names (depth + 1)).read? (digits ++ rest) = some (.predicate id, rest) := by
  have isWord := isWord_of_unsigned? number
  have found := read?_numbered_eq_some_iff.mpr ⟨digits, rfl, number, follows rfl⟩
  rw [read?_operandTo_of_no_sign fun sign isSign left => isWord.not_begins follows isSign,
    read?_bind_of_some found, read?_pure, Option.some_or]

theorem read?_operandTo_named {name : List Char} (known : names.get? (String.ofList name) = some id)
    (shape : IsGroup name ∨ isIdentifier name = true ∧ Follows true rest) :
    (operandTo names (depth + 1)).read? (name ++ rest) = some (.predicate id, rest) := by
  have found : (named names).read? (name ++ rest) = some (id, rest) :=
    read?_named_eq_some_iff.mpr ⟨name, rfl, known, shape.imp_right fun ⟨identifies, follows⟩ =>
      ⟨identifies, follows rfl⟩⟩
  have noSign : ∀ sign ∈ signs, ∀ left, ¬sign.Begins (name ++ rest) left := by
    intro sign isSign left
    rcases shape with isGroup | ⟨identifies, follows⟩
    · obtain ⟨tail, rfl⟩ := isGroup.exists_cons
      exact not_begins_of_not_isPlain (by decide) isSign
    · exact (isWord_of_isIdentifier identifies).not_begins follows isSign
  have noNumber : numbered.read? (name ++ rest) = none := by
    rcases shape with isGroup | ⟨identifies, follows⟩
    · obtain ⟨tail, rfl⟩ := isGroup.exists_cons
      exact read?_numbered_of_not_isDigit (by decide)
    · obtain ⟨⟨c, tail, rfl, start, _⟩, _⟩ := isIdentifier_iff.mp identifies
      exact read?_numbered_of_not_isDigit (not_isDigit_of_isWordStart start)
  rw [read?_operandTo_of_no_sign noSign, read?_bind_of_none noNumber, Option.none_or,
    read?_bind_of_some found, read?_pure, Option.some_or]

/-- A parenthesised expression is read as such if the text is no name. -/
theorem read?_operandTo_parenthesised {inner : List Char} {e : Expr} (isBalanced : IsBalanced inner)
    (unknown : names.get? (String.ofList ('(' :: inner ++ [')'])) = none)
    (read : (parenthesised (operandTo names depth)).read? ('(' :: inner ++ [')'] ++ rest) =
      some (e, rest)) :
    (operandTo names (depth + 1)).read? ('(' :: inner ++ [')'] ++ rest) = some (e, rest) := by
  have noSign : ∀ sign ∈ signs, ∀ left, ¬sign.Begins ('(' :: inner ++ [')'] ++ rest) left :=
    fun sign isSign left => not_begins_of_not_isPlain (by decide) isSign
  have noNumber : numbered.read? ('(' :: inner ++ [')'] ++ rest) = none :=
    read?_numbered_of_not_isDigit (by decide)
  have noName : (named names).read? ('(' :: inner ++ [')'] ++ rest) = none := by
    rw [Option.eq_none_iff_forall_ne_some]
    rintro ⟨id, left⟩ found
    obtain ⟨name, whole, known, isGroup | ⟨identifies, _⟩⟩ := read?_named_eq_some_iff.mp found
    · rw [IsGroup.unique ⟨inner, rfl, isBalanced⟩ isGroup whole, known] at unknown
      contradiction
    · obtain ⟨⟨c, tail, rfl, start, _⟩, _⟩ := isIdentifier_iff.mp identifies
      obtain rfl : '(' = c := (List.cons.inj whole).1
      exact absurd start (by decide)
  rw [read?_operandTo_of_no_sign noSign, read?_bind_of_none noNumber, Option.none_or,
    read?_bind_of_none noName, Option.none_or, read]

end Operands

end Trivalent.Expr
