import Trivalent.Proofs.System.Printing

/-!
# Reading references

A predicate is referred to by its name if the name is an identifier or stands in parentheses, and
else by its number.  An identifier, a name that is one group and a number read back as the
predicate.  But a text that begins with an opening and ends with a closing parenthesis need not be
one group: `(a) & (b)` is read as a conjunction, whatever predicate has this name.
-/

namespace Trivalent

namespace System

/-- A name that stands in parentheses, of which the first is closed before the end. -/
def OnlyLooksGrouped (name : List Char) : Prop :=
  isParenthesised name = true ∧ ¬Expr.IsGroup name

variable {system : System} {id : Nat} {name : String}

theorem firm_of_isParenthesised {name : List Char} (parenthesised : isParenthesised name = true) :
    Expr.Firm name := by
  obtain ⟨opens, closes⟩ := Bool.and_eq_true_iff.mp parenthesised
  rw [beq_iff_eq] at opens closes
  constructor
  · obtain ⟨tail, rfl⟩ := List.head?_eq_some_iff.mp opens
    exact ⟨'(', tail, rfl, by decide⟩
  · obtain ⟨front, rfl⟩ := List.getLast?_eq_some_iff.mp closes
    exact ⟨front, ')', rfl, by decide⟩

/-- A name that only looks like a group is used, and is read as what it spells. -/
theorem parse_reference_of_onlyLooksGrouped (found : system.predicateName? id = some name)
    (looks : OnlyLooksGrouped name.toList) {value : Expr} :
    Expr.parse system.predicates (system.reference id) = .ok value ↔
      ∃ e isWord, Expr.Spells system.predicates (.layer false e) name.toList isWord ∧
        e.folded = value := by
  have used : system.reference id = name.toList := by
    unfold reference
    rw [found]
    exact if_pos (Bool.or_eq_true_iff.mpr (.inr looks.1))
  have trimmed : Text.trim name.toList = name.toList := by
    simpa using (firm_of_isParenthesised looks.1).trim_eq .nil .nil
  rw [used, Expr.parse_eq_ok_iff, trimmed]

/-- Any other reference is read as the predicate. -/
theorem parse_reference_of_not_onlyLooksGrouped (small : id < Word.limit)
    (found : system.predicateName? id = some name) (not : ¬OnlyLooksGrouped name.toList) :
    Expr.parse system.predicates (system.reference id) = .ok (.predicate id) := by
  obtain ⟨isWord, spells⟩ := spells_reference_of_grouped small fun other isName parenthesised => by
    obtain rfl := Option.some.inj (found.symm.trans isName)
    exact not_not.mp fun single => not ⟨parenthesised, single⟩
  have padded : Expr.Spells system.predicates (.padded (.predicate id)) (system.reference id)
      isWord := by
    simpa using Expr.Spells.padded .nil spells.conjunction.disjunction .nil
  exact Expr.parse_of_padded padded

end System

/-- A reference to a predicate of a loaded system reads back as the predicate, unless the name only
looks like a group.  Such a name is read as what it spells, and that is the predicate only where
folding leaves nothing else of it.  Every other name that does not read back is replaced by the
number. -/
theorem ModelFile.parse_reference_iff {text : String} {system : System}
    (loaded : load text = .ok system) {id : Nat} (declared : id ∈ system.predicates.values) :
    ∃ name, system.predicateName? id = some name ∧
      (Expr.parse system.predicates (system.reference id) = .ok (.predicate id) ↔
        (System.OnlyLooksGrouped name.toList → ∃ e isWord,
          Expr.Spells system.predicates (.layer false e) name.toList isWord ∧
            e.folded = .predicate id)) ∧
      (Expr.parse system.predicates name.toList ≠ .ok (.predicate id) →
        ¬System.OnlyLooksGrouped name.toList → system.reference id = Numeral.digits id) := by
  obtain ⟨name, found⟩ := System.exists_predicateName? declared
  have small := values_lt_limit_of_load loaded id declared
  refine ⟨name, found, ?_, fun misread not => ?_⟩
  · by_cases looks : System.OnlyLooksGrouped name.toList
    · rw [System.parse_reference_of_onlyLooksGrouped found looks, imp_iff_right looks]
    · exact iff_of_true (System.parse_reference_of_not_onlyLooksGrouped small found looks)
        fun isLooks => absurd isLooks looks
  · have reads := System.parse_reference_of_not_onlyLooksGrouped small found not
    unfold System.reference at reads ⊢
    rw [found] at reads ⊢
    dsimp only at reads ⊢
    split at reads
    · exact absurd reads misread
    · rename_i other
      exact if_neg other

/-- A name that is a group is kept, and one that is a sign of the language is replaced. -/
theorem ModelFile.parse_reference_iff_of_equation :
    let text := "\x7b\"predicates\": \x7b\"(a = (-1))\": 7, \"not\": 3\x7d, \"processes\": []\x7d"
    let system : System := ⟨.ofList [("(a = (-1))", 7), ("not", 3)], .empty, []⟩
    load text = .ok system ∧ system.reference 7 = "(a = (-1))".toList ∧
      Expr.parse system.predicates (system.reference 7) = .ok (.predicate 7) ∧
        system.reference 3 = "3".toList ∧
          Expr.parse system.predicates (system.reference 3) = .ok (.predicate 3) := by
  intro text system
  have loaded : load text = .ok system := by decide +kernel
  have single : Expr.IsGroup "(a = (-1))".toList := ⟨"a = (-1)".toList, by decide, rfl⟩
  obtain ⟨equation, isFirst, readsFirst, _⟩ := parse_reference_iff loaded (by decide : 7 ∈ _)
  obtain ⟨sign, isSecond, readsSecond, replaced⟩ := parse_reference_iff loaded (by decide : 3 ∈ _)
  obtain rfl : equation = "(a = (-1))" :=
    Option.some.inj (isFirst.symm.trans (by decide +kernel))
  obtain rfl : sign = "not" := Option.some.inj (isSecond.symm.trans (by decide +kernel))
  have bare : ¬System.OnlyLooksGrouped "not".toList := fun looks => absurd looks.1 (by decide)
  refine ⟨loaded, by decide +kernel, readsFirst.mpr fun looks => absurd single looks.2, ?_,
    readsSecond.mpr fun looks => absurd looks bare⟩
  exact (replaced (by decide +kernel) bare).trans (by decide)

/-- A predicate that is named like a conjunction of two groups is printed by its name, and read as
the conjunction. -/
theorem ModelFile.exists_misread_reference :
    let text := "\x7b\"predicates\": \x7b\"(a) & (b)\": 0, \"a\": 1, \"b\": 2\x7d, " ++
      "\"processes\": []\x7d"
    let system : System := ⟨.ofList [("(a) & (b)", 0), ("a", 1), ("b", 2)], .empty, []⟩
    load text = .ok system ∧ 0 ∈ system.predicates.values ∧
      system.reference 0 = "(a) & (b)".toList ∧ system.reference 0 ≠ Numeral.digits 0 ∧
        Expr.parse system.predicates (system.reference 0) =
            .ok (.and [.predicate 1, .predicate 2]) ∧
          Expr.parse system.predicates (system.reference 0) ≠ .ok (.predicate 0) := by
  decide +kernel

end Trivalent
