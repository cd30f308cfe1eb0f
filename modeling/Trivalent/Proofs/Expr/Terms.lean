import Trivalent.Proofs.Expr.Parsing

/-!
# Reading terms

A term is an expression or a choice between two.  No expression begins with the word of choices, so
a term is read as a choice exactly if it is spelled as one.
-/

namespace Trivalent

open Grammar (Rule stops stops_dropWhile dropWhile_run)
open Grammar.Rule

namespace Expr

variable {names : NameTable Nat} {text rest : List Char}

/-- An expression with spaces around it stands before the rest of a text. -/
def ReadsPadded (names : NameTable Nat) (text : List Char) (value : Expr) (rest : List Char) :
    Prop :=
  ∃ behind, (expression names).read? (text.dropWhile isGap) = some (value, behind) ∧
    behind.dropWhile isGap = rest

theorem readsPadded_iff {value : Expr} (closes : Closes rest) :
    ReadsPadded names text value rest ↔ ∃ e front isWord, text = front ++ rest ∧
      Spells names (.padded e) front isWord ∧ e.folded = value := by
  constructor
  · rintro ⟨behind, read, rfl⟩
    rw [read?_expression] at read
    exact exists_spells_padded (readsSpelled_operandTo _) read
  · rintro ⟨e, front, isWord, rfl, spells, rfl⟩
    cases spells with
    | @padded gap gap' body _ _ isSpace spells isSpace' =>
        refine ⟨gap' ++ rest, ?_, dropWhile_run isSpace' closes.stops_isGap⟩
        have stop := (spells.firm nofun).stops_isGap (gap' ++ rest)
        rw [List.append_assoc, List.append_assoc, dropWhile_run isSpace stop, read?_expression]
        have room : body.length ≤ (body ++ (gap' ++ rest)).length + 1 := by
          rw [List.length_append]
          omega
        exact spells.isRead room (closes.follows_append isSpace' isWord)
          ⟨closes.ends isSpace' true, fun _ => closes.ends isSpace' false⟩

theorem closes_comma (rest : List Char) : Closes (',' :: rest) := by
  rintro c ⟨⟩
  exact .inr rfl

theorem closes_parenthesis (rest : List Char) : Closes (')' :: rest) := by
  rintro c ⟨⟩
  exact .inl rfl

theorem read?_choice_eq_some_iff {term : Term} :
    (choice names).read? text = some (term, rest) ↔
      ∃ after inside between left right, text = "choice".toList ++ after ∧
        after.dropWhile isGap = '(' :: inside ∧
          ReadsPadded names inside left (',' :: between) ∧
            ReadsPadded names between right (')' :: rest) ∧ term = .choice left right := by
  simp only [choice, bind_eq, pure_eq, read?_bind_eq_some_iff, read?_blanks, read?_pure,
    read?_spelled_eq_some_iff, Option.some.injEq, Prod.mk.injEq, true_and]
  constructor
  · rintro ⟨_, after, rfl, _, _, rfl, _, inside, opened, _, _, rfl, left, behind, readLeft, _, _,
      rfl, _, between, comma, _, _, rfl, right, behind', readRight, _, _, rfl, _, _, closed,
      rfl, rfl⟩
    exact ⟨after, inside, between, left, right, rfl, opened, ⟨behind, readLeft, comma⟩,
      ⟨behind', readRight, closed⟩, rfl⟩
  · rintro ⟨after, inside, between, left, right, rfl, opened, ⟨behind, readLeft, comma⟩,
      ⟨behind', readRight, closed⟩, rfl⟩
    exact ⟨(), after, rfl, (), _, rfl, (), inside, opened, (), _, rfl, left, behind, readLeft, (),
      _, rfl, (), between, comma, (), _, rfl, right, behind', readRight, (), _, rfl, (), rest,
      closed, rfl, rfl⟩

/-- What is spelled as an expression is not read as a choice. -/
theorem read?_choice_of_padded {e : Expr} {isWord : Bool}
    (spells : Spells names (.padded e) text isWord) :
    (choice names).read? (text.dropWhile isGap) = none := by
  cases spells with
  | @padded gap gap' body _ _ isSpace spells isSpace' =>
      rw [dropWhile_run isSpace ((spells.firm nofun).stops_isGap gap'),
        Option.eq_none_iff_forall_ne_some]
      rintro ⟨term, rest⟩ read
      obtain ⟨after, inside, _, _, _, word, opened, _⟩ := read?_choice_eq_some_iff.mp read
      have follows : Follows isWord gap' := by
        simpa using Closes.nil.follows_append isSpace' isWord
      have stop : stops isWordPart after = true := by
        obtain ⟨gap, isSpace, split⟩ := exists_space after
        rw [split, opened]
        cases gap with
        | nil => rfl
        | cons c gap =>
            have plain := isWordPart_of_isGap (isSpace c List.mem_cons_self)
            exact (follows_cons plain _ : Follows true _) rfl
      exact spells.append_ne nofun follows stop word

/-- What is a choice or an expression, with blanks around it. -/
theorem read?_term_eq_some_iff {term : Term} :
    (Expr.term names).read? text = some (term, rest) ↔ ∃ behind,
      (orElse (choice names)
          (Rule.bind (expression names) fun body => Rule.pure (.plain body))).read?
          (text.dropWhile isGap) = some (term, behind) ∧ behind.dropWhile isGap = rest := by
  simp only [Expr.term, bind_eq, pure_eq, read?_bind_eq_some_iff, read?_blanks, read?_pure,
    Option.some.injEq, Prod.mk.injEq, true_and]
  constructor
  · rintro ⟨_, _, rfl, _, behind, read, _, _, rfl, rfl, rfl⟩
    exact ⟨behind, read, rfl⟩
  · rintro ⟨behind, read, rfl⟩
    exact ⟨(), _, rfl, term, behind, read, (), _, rfl, rfl, rfl⟩

end Expr

namespace Term

open Trivalent.Expr (IsSpace isGap Closes)

/-- The term with its expressions folded. -/
def folded : Term → Term
  | .plain body => .plain body.folded
  | .choice left right => .choice left.folded right.folded

/-- The texts that spell a term when predicates have the given names. -/
inductive Spells (names : NameTable Nat) : Term → List Char → Prop where
  /-- An expression. -/
  | plain {text : List Char} {e : Expr} {isWord : Bool} :
      Expr.Spells names (.padded e) text isWord → Spells names (.plain e) text
  /-- A choice. -/
  | choice {gap gap' gap'' left right : List Char} {e f : Expr} {isWord isWord' : Bool} :
      IsSpace gap → IsSpace gap' → Expr.Spells names (.padded e) left isWord →
      Expr.Spells names (.padded f) right isWord' → IsSpace gap'' →
      Spells names (.choice e f) (gap ++ ("choice".toList ++ (gap' ++
        ('(' :: left ++ (',' :: right ++ (')' :: gap''))))))

variable {names : NameTable Nat} {text : List Char}

/-- Reading a term gives the folded term that the text spells, and fails if it spells none. -/
theorem parse_eq_ok_iff {value : Term} :
    parse names text = .ok value ↔ ∃ term, Spells names term text ∧ term.folded = value := by
  rw [parse, readAll_eq_ok_iff, Expr.read?_term_eq_some_iff]
  constructor
  · rintro ⟨behind, read, closed⟩
    obtain ⟨gap, isSpace, same⟩ := Expr.exists_space text
    rw [read?_orElse, Option.or_eq_some_iff] at read
    rcases read with asChoice | ⟨_, asExpr⟩
    · obtain ⟨after, inside, between, left, right, word, opened, readLeft, readRight, rfl⟩ :=
        Expr.read?_choice_eq_some_iff.mp asChoice
      obtain ⟨gap', isSpace', split⟩ := Expr.exists_space after
      obtain ⟨gap'', isSpace'', ending⟩ := Expr.exists_space behind
      obtain ⟨e, front, isWord, rfl, spells, rfl⟩ :=
        (Expr.readsPadded_iff (Expr.closes_comma between)).mp readLeft
      obtain ⟨f, front', isWord', rfl, spells', rfl⟩ :=
        (Expr.readsPadded_iff (Expr.closes_parenthesis behind)).mp readRight
      refine ⟨.choice e f, ?_, rfl⟩
      rw [closed, List.append_nil] at ending
      rw [same, word, split, opened, ending]
      exact .choice isSpace isSpace' spells spells' isSpace''
    · obtain ⟨body, left, read, made⟩ := read?_bind_eq_some_iff.mp asExpr
      obtain ⟨rfl, rfl⟩ := Prod.mk.inj (Option.some.inj made)
      obtain ⟨e, front, isWord, whole, spells, rfl⟩ :=
        (Expr.readsPadded_iff Closes.nil).mp ⟨left, read, closed⟩
      rw [List.append_nil] at whole
      exact ⟨.plain e, .plain (whole ▸ spells), rfl⟩
  · rintro ⟨term, spells, rfl⟩
    cases spells with
    | @plain _ e isWord spells =>
        obtain ⟨behind, read, closed⟩ := (Expr.readsPadded_iff Closes.nil).mpr
          ⟨e, text, isWord, (List.append_nil text).symm, spells, rfl⟩
        refine ⟨behind, ?_, closed⟩
        rw [read?_orElse_of_none (Expr.read?_choice_of_padded spells), read?_bind_of_some read]
        rfl
    | @choice gap gap' gap'' left right e f isWord isWord' isSpace isSpace' spells spells'
        isSpace'' =>
        refine ⟨gap'', read?_orElse_of_some (Expr.read?_choice_eq_some_iff.mpr ?_),
          List.dropWhile_eq_nil_iff.mpr isSpace''⟩
        have readRight := (Expr.readsPadded_iff (Expr.closes_parenthesis gap'')).mpr
          ⟨f, right, isWord', rfl, spells', rfl⟩
        have readLeft := (Expr.readsPadded_iff (Expr.closes_comma (right ++ ')' :: gap''))).mpr
          ⟨e, left, isWord, rfl, spells, rfl⟩
        exact ⟨_, _, _, e.folded, f.folded, dropWhile_run isSpace rfl, dropWhile_run isSpace' rfl,
          readLeft, readRight, rfl⟩

end Term

end Trivalent
