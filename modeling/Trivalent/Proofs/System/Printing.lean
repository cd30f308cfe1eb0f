import Trivalent.Proofs.Expr.Terms
import Trivalent.Proofs.Expr.Writing
import Trivalent.Proofs.Json.Ensured
import Trivalent.Proofs.ModelFile.Unknown
import Trivalent.Proofs.System.Predicates
import Trivalent.System.Printer

/-!
# Reading printed systems

A predicate is printed by a text that refers to it, unless its name only looks like a group.  So
what is printed of a term is a spelling, and it is read as the term again unless the printer puts
an operand in parentheses whose text is the name of another predicate.
-/

namespace Trivalent

namespace Term

variable {names : NameTable Nat} {name : Nat → List Char}

/-- The occurrences of predicates, from left to right. -/
def occurrences : Term → List Nat
  | .plain body => body.occurrences
  | .choice left right => left.occurrences ++ right.occurrences

theorem mem_predicates_iff {id : Nat} {term : Term} :
    id ∈ term.predicates ↔ id ∈ term.occurrences := by
  cases term with
  | plain body => exact mem_predicates_plain
  | choice left right => rw [mem_predicates_choice, occurrences, List.mem_append]

/-- The parenthesised texts that writing a term makes of operands. -/
def groups (name : Nat → List Char) : Term → List (List Char)
  | .plain body => body.groups name
  | .choice left right => left.groups name ++ right.groups name

/-- The term that the text of a term spells. -/
def reread (names : NameTable Nat) (name : Nat → List Char) : Term → Term
  | .plain body => .plain (body.reread names name)
  | .choice left right => .choice (left.reread names name) (right.reread names name)

/-- A term without constants among its operands. -/
def IsFolded : Term → Prop
  | .plain body => body.IsFolded
  | .choice left right => left.IsFolded ∧ right.IsFolded

theorem isFolded_folded (term : Term) : term.folded.IsFolded := by
  cases term with
  | plain body => exact body.isFolded_folded
  | choice left right => exact ⟨left.isFolded_folded, right.isFolded_folded⟩

theorem folded_reread {term : Term} (folded : term.IsFolded) :
    (term.reread names name).folded = term.reread names name := by
  cases term with
  | plain body => rw [reread, Term.folded, (Expr.isFolded_reread folded).folded_eq]
  | choice left right =>
      rw [reread, Term.folded, (Expr.isFolded_reread folded.1).folded_eq,
        (Expr.isFolded_reread folded.2).folded_eq]

theorem reread_eq_self_iff (term : Term) : term.reread names name = term ↔
    ∀ text ∈ term.groups name, names.get? (String.ofList text) = none := by
  cases term with
  | plain body => rw [reread, groups, Term.plain.injEq, Expr.reread_eq_self_iff]
  | choice left right =>
      rw [reread, groups, Term.choice.injEq, Expr.reread_eq_self_iff, Expr.reread_eq_self_iff,
        List.forall_mem_append]

theorem head?_of_mem_groups (term : Term) : ∀ text ∈ term.groups name, text.head? = some '(' := by
  cases term with
  | plain body => exact body.head?_of_mem_groups
  | choice left right =>
      exact List.forall_mem_append.mpr ⟨left.head?_of_mem_groups, right.head?_of_mem_groups⟩

/-- The text of a term spells what it is read as, if every predicate is written by a text that
spells it. -/
theorem spells_write {term : Term} (spelled : ∀ id ∈ term.occurrences,
    ∃ isWord, Expr.Spells names (.operand (.predicate id)) (name id) isWord) :
    Spells names (term.reread names name) (term.write name) := by
  have padded (e : Expr) {gap : List Char} (isSpace : Expr.IsSpace gap)
      (spelled : ∀ id ∈ e.occurrences,
        ∃ isWord, Expr.Spells names (.operand (.predicate id)) (name id) isWord) :
      ∃ isWord, Expr.Spells names (.padded (e.reread names name)) (gap ++ e.write name) isWord := by
    obtain ⟨isWord, spells⟩ := (Expr.isSpelled_write e spelled).layer
    exact ⟨isWord, by simpa using Expr.Spells.padded isSpace spells .nil⟩
  cases term with
  | plain body =>
      obtain ⟨isWord, spells⟩ := padded body .nil spelled
      exact .plain spells
  | choice left right =>
      obtain ⟨_, first⟩ := padded left .nil fun id member =>
        spelled id (List.mem_append_left _ member)
      obtain ⟨_, second⟩ := padded right Expr.isSpace_blank fun id member =>
        spelled id (List.mem_append_right _ member)
      have opening : "choice(".toList = "choice".toList ++ ['('] := by decide
      have separating : ", ".toList = [',', ' '] := by decide
      unfold write
      rw [reread, opening, separating]
      simpa only [List.append_assoc, List.nil_append, List.cons_append] using
        Spells.choice .nil .nil first second .nil

end Term

namespace System

variable {system : System}

/-- Names that are printed because they stand in parentheses are single groups. -/
def Referable (system : System) : Prop :=
  ∀ name ∈ system.predicates.names, isParenthesised name.toList = true → Expr.IsGroup name.toList

/-- What a predicate is referred to by spells it, unless its name only looks like a group. -/
theorem spells_reference_of_grouped {id : Nat} (small : id < Word.limit)
    (grouped : ∀ name, system.predicateName? id = some name →
      isParenthesised name.toList = true → Expr.IsGroup name.toList) :
    ∃ isWord, Expr.Spells system.predicates (.operand (.predicate id)) (system.reference id)
      isWord := by
  have byNumber : ∃ isWord, Expr.Spells system.predicates (.operand (.predicate id))
      (Numeral.digits id) isWord :=
    ⟨true, .number (Expr.unsigned?_digits small)⟩
  unfold reference
  split
  · rename_i name found
    have known := predicateId?_of_predicateName? found
    rw [← String.ofList_toList (s := name)] at known
    split
    · rename_i shape
      rcases Bool.or_eq_true_iff.mp shape with identifies | parenthesised
      · exact ⟨true, .identifier identifies known⟩
      · exact ⟨false, .fullName (grouped name found parenthesised) known⟩
    · exact byNumber
  · exact byNumber

theorem spells_reference (referable : system.Referable) {id : Nat} (small : id < Word.limit) :
    ∃ isWord, Expr.Spells system.predicates (.operand (.predicate id)) (system.reference id)
      isWord :=
  spells_reference_of_grouped small fun name found =>
    have listed := predicateId?_eq_some_iff.mp (predicateId?_of_predicateName? found)
    referable name (List.mem_map_of_mem listed)

/-- What is printed of a term spells the term that it is read as. -/
theorem spells_termText (referable : system.Referable) {term : Term}
    (small : ∀ id ∈ term.occurrences, id < Word.limit) :
    Term.Spells system.predicates (term.reread system.predicates system.reference)
      (system.termText term).toList := by
  rw [termText, String.toList_ofList]
  exact Term.spells_write fun id member => spells_reference referable (small id member)

end System

/-- The terms of a transition: its guard and what its updates assign. -/
def Transition.terms (transition : Transition) : List Term :=
  transition.guard :: transition.assignments.map (·.value)

namespace ModelFile

variable {names : NameTable Nat} {process : Nat}

theorem ReadsTerm.isFolded {text : List Char} {term : Term} (reads : ReadsTerm names text term) :
    term.IsFolded := by
  obtain ⟨raw, _, rfl⟩ := Term.parse_eq_ok_iff.mp reads.parsed
  exact raw.isFolded_folded

theorem TransitionText.Says.isFolded {text : TransitionText} {transition : Transition}
    (said : text.Says names transition) : ∀ term ∈ transition.terms, term.IsFolded := by
  have always : Term.always.IsFolded := .inl ⟨true, rfl⟩
  have guard : transition.guard.IsFolded := by
    cases given : text.guard with
    | none => exact said.noGuard given ▸ always
    | some guard => exact (said.guard guard given).isFolded
  refine List.forall_mem_cons.mpr ⟨guard, List.forall_mem_map.mpr fun assignment member => ?_⟩
  obtain ⟨_, _, update⟩ := exists_of_mem_right said.assignments member
  exact update.value.isFolded

/-- The terms of a loaded system are folded. -/
theorem isFolded_of_load {text : String} {system : System} (loaded : load text = .ok system)
    {process : Process} (member : process ∈ system.processes) {transition : Transition}
    (listed : transition ∈ process.transitions) : ∀ term ∈ transition.terms, term.IsFolded := by
  obtain ⟨_, _, said⟩ := exists_said_of_load loaded
  obtain ⟨_, isSaid⟩ := said.exists_text member listed
  exact isSaid.isFolded

theorem occurrences_lt_limit_of_load {text : String} {system : System}
    (loaded : load text = .ok system) {process : Process} (member : process ∈ system.processes)
    {transition : Transition} (listed : transition ∈ process.transitions) :
    ∀ term ∈ transition.terms, ∀ id ∈ term.occurrences, id < Word.limit := by
  have refers := declared_of_load loaded process member transition listed
  have declared : ∀ term ∈ transition.terms, ∀ id ∈ term.predicates,
      id ∈ system.predicates.values :=
    List.forall_mem_cons.mpr ⟨refers.guard, List.forall_mem_map.mpr refers.value⟩
  intro term used id occurs
  exact values_lt_limit_of_load loaded id
    (declared term used id (Term.mem_predicates_iff.mpr occurs))

/-- What is printed of a term of a loaded system is read as a term again: as the same one exactly if
no operand that the printer puts in parentheses has the name of a predicate as its text. -/
theorem parse_termText_iff {text : String} {system : System} (loaded : load text = .ok system)
    (referable : system.Referable) {process : Process} (member : process ∈ system.processes)
    {transition : Transition} (listed : transition ∈ process.transitions) {term : Term}
    (used : term ∈ transition.terms) :
    (∃ read, Term.parse system.predicates (system.termText term).toList = .ok read) ∧
      (Term.parse system.predicates (system.termText term).toList = .ok term ↔
        ∀ group ∈ term.groups system.reference,
          system.predicates.get? (String.ofList group) = none) := by
  have small := occurrences_lt_limit_of_load loaded member listed term used
  have folded := isFolded_of_load loaded member listed term used
  have read : Term.parse system.predicates (system.termText term).toList =
      .ok (term.reread system.predicates system.reference) :=
    Term.parse_eq_ok_iff.mpr ⟨_, System.spells_termText referable small, Term.folded_reread folded⟩
  refine ⟨⟨_, read⟩, ?_⟩
  rw [read, Except.ok.injEq, Term.reread_eq_self_iff]

end ModelFile

namespace Captured

open ModelFile

/-- The text of a model in which a predicate is named like the disjunction of two others. -/
def text (guard : String) : String :=
  "\x7b\"predicates\": \x7b\"(a | b)\": 0, \"a\": 1, \"b\": 2, \"c\": 3\x7d, \"processes\": [[" ++
    "\x7b\"source\": 0, \"destination\": 1, \"guard\": \"" ++ guard ++ "\"\x7d]]\x7d"

/-- The predicates of the model. -/
def entries : List (String × Nat) :=
  [("(a | b)", 0), ("a", 1), ("b", 2), ("c", 3)]

/-- What the text says before the guard is read. -/
def model (guard : String) : ModelText :=
  ⟨entries, [], [[⟨0, 1, some guard.toList, []⟩]]⟩

/-- The system of the text with a guard. -/
def system (guard : Expr) : System :=
  ⟨.ofList entries, .empty, [⟨0, [⟨0, 1, .plain guard, []⟩]⟩]⟩

/-- Not a, and b or c. -/
def free : Expr :=
  .and [.not (.predicate 1), .or [.predicate 2, .predicate 3]]

/-- A or b, and c. -/
def captured : Expr :=
  .and [.or [.predicate 1, .predicate 2], .predicate 3]

theorem headerFits (guard : String) : (model guard).HeaderFits where
  distinct := show firstRepeated [] (NameTable.ofList entries).values = none by decide
  known := rfl

theorem load_text {guard : String} {e : Expr}
    (read : layout (text guard).toList = .ok (model guard))
    (parsed : Term.parse (.ofList entries) guard.toList = .ok (.plain e))
    (known : ∀ id ∈ e.occurrences, id ∈ (NameTable.ofList entries).values) :
    load (text guard) = .ok (system e) := by
  have transition : TransitionText.Says (.ofList entries) ⟨0, 1, some guard.toList, []⟩
      ⟨0, 1, .plain e, []⟩ := by
    refine ⟨rfl, rfl, nofun, fun text given => ?_, .nil⟩
    obtain rfl := Option.some.inj given
    exact ⟨parsed, fun id member => known id (Term.mem_predicates_iff.mp member)⟩
  have numbered : (system e).Numbered := by
    rintro (_ | p) process found
    · obtain rfl := Option.some.inj found
      rfl
    · contradiction
  rw [load_of_layout read, systemOfText_eq_ok_iff]
  exact ⟨headerFits guard, rfl, rfl, numbered, .cons (.cons transition .nil) .nil⟩

theorem load_free : load (text "~a & (b | c)") = .ok (system free) :=
  load_text (by decide +kernel) (by decide +kernel) (by decide)

theorem load_captured : load (text "((a) | b) & c") = .ok (system captured) :=
  load_text (by decide +kernel) (by decide +kernel) (by decide)

theorem referable (guard : Expr) : (system guard).Referable := by
  have names : (NameTable.ofList entries).names = ["(a | b)", "a", "b", "c"] := by decide
  have isGroup : Expr.IsGroup "(a | b)".toList := ⟨"a | b".toList, by decide, rfl⟩
  intro name member parenthesised
  rcases List.mem_cons.mp (names ▸ member) with rfl | member
  · exact isGroup
  · have bare : ∀ name ∈ ["a", "b", "c"], System.isParenthesised name.toList = false := by decide
    rw [bare name member] at parenthesised
    contradiction

end Captured

open Captured

/-- A guard without parentheses that are a name is read again. -/
theorem ModelFile.parse_termText_of_free :
    load (text "~a & (b | c)") = .ok (system free) ∧ (system free).Referable ∧
      (system free).termText (.plain free) = "~a & (b | c)" ∧
        Term.parse (system free).predicates ((system free).termText (.plain free)).toList =
          .ok (.plain free) := by
  have listed : (⟨0, 1, .plain free, []⟩ : Transition) ∈ [(⟨0, 1, .plain free, []⟩ : Transition)] :=
    List.mem_singleton_self _
  have read := parse_termText_iff load_free (referable free) (List.mem_singleton_self _) listed
    List.mem_cons_self
  exact ⟨load_free, referable free, by decide, read.2.mpr (by decide)⟩

/-- A guard in which the printer adds parentheses that are a name is read as another one. -/
theorem ModelFile.exists_captured :
    load (text "((a) | b) & c") = .ok (system captured) ∧ (system captured).Referable ∧
      (system captured).termText (.plain captured) = "(a | b) & c" ∧
        Term.parse (system captured).predicates
            ((system captured).termText (.plain captured)).toList =
          .ok (.plain (.and [.predicate 0, .predicate 3])) ∧
          (∃ process ∈ (system captured).processes, ∃ transition ∈ process.transitions,
            .plain captured ∈ transition.terms) ∧
            captured ≠ .and [.predicate 0, .predicate 3] := by
  refine ⟨load_captured, referable captured, by decide, by decide +kernel, ?_, by decide⟩
  exact ⟨_, List.mem_singleton_self _, _, List.mem_singleton_self _, List.mem_cons_self⟩

namespace System

/-- If no name begins with a parenthesis, then every spelling of a term is read as the term folded,
what is printed of a term is a spelling of it, and parentheses may be put around any operand. -/
theorem parse_of_spells (system : System)
    (bare : ∀ name ∈ system.predicates.names, name.toList.head? ≠ some '(') :
    (∀ term, (∀ id ∈ term.occurrences, id < Word.limit) →
      Term.Spells system.predicates term (system.termText term).toList) ∧
      (∀ term text, Term.Spells system.predicates term text →
        Term.parse system.predicates text = .ok term.folded) ∧
      (∀ e text, Term.Spells system.predicates (.plain e) text →
        Expr.parse system.predicates text = .ok e.folded) ∧
      ∀ e text isWord, Expr.Spells system.predicates (.padded e) text isWord →
        Expr.Spells system.predicates (.operand e) ('(' :: text ++ [')']) false := by
  have unknown {text : List Char} (opens : text.head? = some '(') :
      system.predicates.get? (String.ofList text) = none := by
    rw [Option.eq_none_iff_forall_ne_some]
    intro id known
    have listed := List.mem_map_of_mem (f := (·.1)) ((NameTable.get?_eq_some_iff _).mp known)
    refine bare _ listed ?_
    rwa [String.toList_ofList]
  refine ⟨fun term small => ?_, fun term text spells => ?_, fun e text spells => ?_,
    fun e text isWord spells => .group spells (unknown rfl)⟩
  · have referable : system.Referable := by
      intro name listed parenthesised
      have opens := (Bool.and_eq_true_iff.mp parenthesised).1
      exact absurd (by simpa using opens) (bare name listed)
    have same : term.reread system.predicates system.reference = term :=
      Term.reread_eq_self_iff term |>.mpr fun text member =>
        unknown (term.head?_of_mem_groups text member)
    have spells := spells_termText referable small
    rwa [same] at spells
  · exact Term.parse_eq_ok_iff.mpr ⟨term, spells, rfl⟩
  · cases spells with
    | plain spells => exact Expr.parse_of_padded spells

/-- A predicate that is named by a word and one that is not. -/
def worded : System :=
  ⟨.ofList [("ready", 1), ("x + y", 2)], .empty, []⟩

/-- A printed term with a constant and a double negation is read as the term folded. -/
theorem parse_of_spells_of_ready :
    (∀ name ∈ worded.predicates.names, name.toList.head? ≠ some '(') ∧
      worded.termText (.plain (.and [.literal true, .not (.not (.predicate 1)), .predicate 2])) =
          "$true & ~(~ready) & 2" ∧
        Expr.parse worded.predicates "$true & ~(~ready) & 2".toList =
          .ok (.and [.predicate 1, .predicate 2]) := by
  have bare : ∀ name ∈ worded.predicates.names, name.toList.head? ≠ some '(' := by decide
  have printed : worded.termText
      (.plain (.and [.literal true, .not (.not (.predicate 1)), .predicate 2])) =
        "$true & ~(~ready) & 2" := by decide
  obtain ⟨spells, _, parses, _⟩ := parse_of_spells worded bare
  refine ⟨bare, printed, ?_⟩
  rw [← printed]
  exact parses _ _ (spells _ (by decide))

end System

end Trivalent
