import Trivalent.Proofs.ModelFile.Parts
import Trivalent.Proofs.Semantics.Carrying
import Trivalent.Proofs.System.Equality

/-!
# Unknown predicates

A term is checked after it has been folded.  So a number that stands for no predicate of the model
is reported exactly if folding leaves an occurrence of it: if it stands in no conjunction or
disjunction of which another operand is folded to the constant that absorbs it.
-/

namespace Trivalent

namespace Term

/-- An occurrence of a predicate that folding leaves. -/
def Shows (id : Nat) : Term → Prop
  | .plain body => body.Shows id
  | .choice left right => left.Shows id ∨ right.Shows id

/-- The predicates of a folded term are those that the term shows. -/
theorem mem_predicates_folded {id : Nat} {term : Term} :
    id ∈ term.folded.predicates ↔ term.Shows id := by
  cases term with
  | plain body => rw [folded, mem_predicates_plain, Shows, Expr.mem_occurrences_folded]
  | choice left right =>
      rw [folded, mem_predicates_choice, Shows, Expr.mem_occurrences_folded,
        Expr.mem_occurrences_folded]

end Term

namespace ModelFile

variable {names : NameTable Nat} {process : Nat}

theorem checkPart_term_of_parse {text : List Char} {term : Term}
    (parsed : Term.parse names text = .ok term) :
    checkPart names process (.term text) =
      (term.predicates.find? fun id => !names.values.contains id).elim (.ok ())
        fun id => .error (.unknownPredicate process id) := by
  rw [checkPart, termOfText, parsed]
  dsimp only
  cases term.predicates.find? fun id => !names.values.contains id <;> rfl

section Texts

variable {text : List Char} {raw : Term} (spells : Term.Spells names raw text)

include spells

theorem checkPart_term :
    checkPart names process (.term text) =
      (raw.folded.predicates.find? fun id => !names.values.contains id).elim (.ok ())
        fun id => .error (.unknownPredicate process id) :=
  checkPart_term_of_parse (Term.parse_eq_ok_iff.mpr ⟨raw, spells, rfl⟩)

/-- The text of a term that shows no unknown predicate passes. -/
theorem checkPart_term_eq_ok (known : ∀ id, raw.Shows id → id ∈ names.values) :
    checkPart names process (.term text) = .ok () := by
  have none : (raw.folded.predicates.find? fun id => !names.values.contains id) = none := by
    rw [List.find?_eq_none]
    intro id member
    have isKnown := known id (Term.mem_predicates_folded.mp member)
    simpa using isKnown
  rw [checkPart_term spells, none]
  rfl

/-- The text of a term that shows an unknown predicate fails with an unknown predicate that the
term shows. -/
theorem checkPart_term_eq_error {id : Nat} (shown : raw.Shows id) (unknown : id ∉ names.values) :
    ∃ id, raw.Shows id ∧ id ∉ names.values ∧
      checkPart names process (.term text) = .error (.unknownPredicate process id) := by
  have some : (raw.folded.predicates.find? fun id => !names.values.contains id).isSome := by
    rw [List.find?_isSome]
    exact ⟨id, Term.mem_predicates_folded.mpr shown, by simpa using unknown⟩
  obtain ⟨first, found⟩ := Option.isSome_iff_exists.mp some
  refine ⟨first, Term.mem_predicates_folded.mp (List.mem_of_find?_eq_some found), ?_, ?_⟩
  · simpa using List.find?_some found
  · rw [checkPart_term spells, found]
    rfl

end Texts

/-- The check of every part passes. -/
def Passes (names : NameTable Nat) (parts : List (Nat × Part)) : Prop :=
  ∀ part ∈ parts, checkPart names part.1 part.2 = .ok ()

variable {text : String} {model : ModelText}

/-- A model of which a part fails is not loaded. -/
theorem load_ne_ok_of_checkPart (read : layout text.toList = .ok model) {part : Nat × Part}
    (member : part ∈ model.parts) {e : LoadError}
    (failed : checkPart model.names part.1 part.2 = .error e) (system : System) :
    load text ≠ .ok system := by
  intro loaded
  rw [load_of_layout read] at loaded
  have checked := outcome_systemOfText (headerFits_of_systemOfText loaded)
  rw [loaded] at checked
  have passed := forM_eq_ok_iff.mp checked.symm part member
  rw [failed] at passed
  contradiction

/-- A number for no predicate in the text of a term is reported exactly if folding leaves an
occurrence of it.  If the term shows one, then the model is not loaded, and if nothing that is
checked before is wrong, then one that the term shows is reported for the process.  If the term
shows none, then the text passes, whatever numbers occur in it. -/
theorem reports_unknown_iff_shows (read : layout text.toList = .ok model)
    {before after : List (Nat × Part)} {process : Nat} {part : List Char}
    (split : model.parts = before ++ (process, .term part) :: after) {term : Term}
    (parses : Term.parse model.names part = .ok term) :
    (∃ raw, Term.Spells model.names raw part) ∧
      ∀ raw, Term.Spells model.names raw part →
        ((∃ id, raw.Shows id ∧ id ∉ model.names.values) →
          (∀ system, load text ≠ .ok system) ∧
            (model.HeaderFits → Passes model.names before →
              ∃ id, raw.Shows id ∧ id ∉ model.names.values ∧
                load text = .error (.unknownPredicate process id))) ∧
        ((∀ id, raw.Shows id → id ∈ model.names.values) →
          model.HeaderFits → Passes model.names before → Passes model.names after →
            ∃ system, load text = .ok system) := by
  obtain ⟨raw, spells, _⟩ := Term.parse_eq_ok_iff.mp parses
  refine ⟨⟨raw, spells⟩, fun raw spells => ⟨?_, ?_⟩⟩
  · rintro ⟨id, shown, unknown⟩
    obtain ⟨first, isShown, isUnknown, failed⟩ : ∃ id, raw.Shows id ∧ id ∉ model.names.values ∧
        checkPart model.names process (.term part) = .error (.unknownPredicate process id) :=
      checkPart_term_eq_error spells shown unknown
    constructor
    · exact load_ne_ok_of_checkPart read (split ▸ List.mem_append_right _ List.mem_cons_self) failed
    · intro fits passed
      refine ⟨first, isShown, isUnknown, ?_⟩
      rw [load_of_layout read, ← outcome_eq_error_iff, outcome_systemOfText fits, split]
      exact forM_eq_error passed failed
  · intro known fits passed passed'
    rw [load_of_layout read]
    refine outcome_eq_ok_iff.mp ?_
    rw [outcome_systemOfText fits, split, forM_eq_ok_iff]
    refine List.forall_mem_append.mpr ⟨passed, List.forall_mem_cons.mpr ⟨?_, passed'⟩⟩
    exact checkPart_term_eq_ok spells known

end ModelFile

namespace Absorbed

open ModelFile

/-- The text of a model with a predicate 0, of which the only guard is a conjunction with 7. -/
def text (operand : String) : String :=
  "\x7b\"predicates\": \x7b\"x\": 0\x7d, \"processes\": [[\x7b\"source\": 0, " ++
    "\"destination\": 1, \"guard\": \"" ++ operand ++ " & 7\"\x7d]]\x7d"

/-- What the text says before the guard is read. -/
def model (operand : String) : ModelText :=
  ⟨[("x", 0)], [], [[⟨0, 1, some (operand ++ " & 7").toList, []⟩]]⟩

/-- A predicate or a constant and 7 are spelled as a conjunction. -/
theorem spells_conjunction {names : NameTable Nat} {e : Expr} {operand : List Char} {isWord : Bool}
    (spells : Expr.Spells names (.operand e) operand isWord) :
    Term.Spells names (.plain (.and [e, .predicate 7])) (operand ++ " & 7".toList) := by
  have number : Expr.Spells names (.operand (.predicate 7)) ['7'] true := .number (by decide)
  have isSign : (⟨"&", false⟩ : Expr.Sign) ∈ Expr.joiningSigns true := by decide
  have isSpace : Expr.IsSpace [' '] := by simp [Expr.IsSpace, Expr.isGap]
  have chain : Expr.Spells names (.chain true [e]) operand isWord := .first spells
  have whole := chain.more isSpace isSign isSpace number (Expr.follows_cons (by decide) _)
    (Expr.follows_symbol _)
  have padded := Expr.Spells.padded .nil whole.joined.disjunction .nil
  exact .plain (by simpa [Expr.node] using padded)

/-- The system of the text if the guard is absorbed by a constant. -/
def system : System where
  predicates := .ofList [("x", 0)]
  initial := .empty
  processes := [⟨0, [⟨0, 1, .plain (.literal false), []⟩]⟩]

theorem layout_text : layout (text "x").toList = .ok (model "x") ∧
    layout (text "false").toList = .ok (model "false") := by
  decide +kernel

theorem load_text : load (text "false") = .ok system := by
  decide +kernel

theorem parse_guard : Term.parse (model "x").names "x & 7".toList =
    .ok (.plain (.and [.predicate 0, .predicate 7])) := by
  decide +kernel

end Absorbed

open Absorbed

/-- A number for no predicate is reported if it is joined to a predicate. -/
theorem ModelFile.reports_unknown_of_predicate :
    layout (text "x").toList = .ok (model "x") ∧
      (model "x").parts = [] ++ (0, .term "x & 7".toList) :: [] ∧
        Term.parse (model "x").names "x & 7".toList =
            .ok (.plain (.and [.predicate 0, .predicate 7])) ∧
          (∀ system, load (text "x") ≠ .ok system) ∧
            load (text "x") = .error (.unknownPredicate 0 7) := by
  have parts : (model "x").parts = [] ++ (0, .term "x & 7".toList) :: [] := rfl
  have named : Expr.Spells (model "x").names (.operand (.predicate 0)) "x".toList true :=
    .identifier (by decide) (by decide)
  have shown : Expr.Shows 7 (.and [.predicate 0, .predicate 7]) :=
    .and (List.mem_cons_of_mem _ List.mem_cons_self) .predicate (by decide)
  obtain ⟨_, each⟩ := reports_unknown_iff_shows layout_text.1 parts parse_guard
  obtain ⟨notLoaded, reported⟩ :=
    (each _ (spells_conjunction named)).1 ⟨7, shown, by decide⟩
  obtain ⟨id, isShown, unknown, failed⟩ := reported ⟨by decide, by decide⟩ nofun
  have same : id = 7 := by
    cases isShown with
    | and member shows _ =>
        rcases List.mem_cons.mp member with rfl | member
        · cases shows
          exact absurd (by decide) unknown
        · obtain rfl := List.mem_singleton.mp member
          cases shows
          rfl
  exact ⟨layout_text.1, parts, parse_guard, notLoaded, same ▸ failed⟩

/-- A number for no predicate is accepted if it is joined to a constant that absorbs it. -/
theorem ModelFile.exists_unknown_accepted :
    layout (text "false").toList = .ok (model "false") ∧
      (model "false").parts = [(0, .term "false & 7".toList)] ∧
        Term.Spells (model "false").names (.plain (.and [.literal false, .predicate 7]))
            "false & 7".toList ∧
          7 ∉ (model "false").names.values ∧ ∃ system, load (text "false") = .ok system := by
  have isSign : (⟨"false", true⟩ : Expr.Sign) ∈ Expr.constantSigns false := by decide
  exact ⟨layout_text.2, rfl, spells_conjunction (.constant isSign), by decide, system, load_text⟩

end Trivalent
