import Mathlib.Tactic.Common
import Trivalent.Proofs.Formula.Evaluation

/-!
# Atoms that occur in formulas

A value depends on no atom but those that occur.  `Uses P f` tells that all atoms of `f` are of one
kind; the folding constructors bring in no atom that their operands lack.
-/

namespace Trivalent.Formula

/-! ## Occurrences in lists -/

mutual

theorem mem_gather {a : Atom} (later : List Atom) (f : Formula) :
    a ∈ gather later f ↔ a ∈ gather [] f ∨ a ∈ later := by
  cases f with
  | atom b => simp [gather]
  | not body => simpa [gather] using mem_gather later body
  | and operands => simpa [gather] using mem_gatherAll later operands
  | or operands => simpa [gather] using mem_gatherAll later operands

theorem mem_gatherAll {a : Atom} (later : List Atom) (operands : List Formula) :
    a ∈ gatherAll later operands ↔ a ∈ gatherAll [] operands ∨ a ∈ later := by
  cases operands with
  | nil => simp [gatherAll]
  | cons f rest =>
      simp only [gatherAll]
      rw [mem_gather (gatherAll later rest), mem_gatherAll later rest,
        mem_gather (gatherAll [] rest), or_assoc]

end

theorem mem_gatherAll_nil {a : Atom} {operands : List Formula} :
    a ∈ gatherAll [] operands ↔ ∃ f ∈ operands, a ∈ f.occurrences := by
  induction operands with
  | nil => simp [gatherAll]
  | cons f rest ih =>
      simp only [gatherAll, List.mem_cons, exists_eq_or_imp]
      rw [mem_gather, ih, occurrences]

theorem mem_atoms {a : Atom} {f : Formula} : a ∈ f.atoms ↔ a ∈ f.occurrences :=
  mem_ascending

mutual

/-- A value depends on the atoms that occur and on no other. -/
theorem eval_congr {v v' : Valuation} (f : Formula)
    (agree : ∀ a ∈ f.occurrences, v a = v' a) : f.eval v = f.eval v' := by
  cases f with
  | atom a => simpa [eval] using agree a (by simp [occurrences, gather])
  | not body =>
      simp only [eval]
      rw [eval_congr body agree]
  | and operands => exact (evalAll_congr operands agree).1
  | or operands => exact (evalAll_congr operands agree).2

theorem evalAll_congr {v v' : Valuation} (operands : List Formula)
    (agree : ∀ a ∈ gatherAll [] operands, v a = v' a) :
    evalAll v operands = evalAll v' operands ∧ evalAny v operands = evalAny v' operands := by
  cases operands with
  | nil => simp [evalAll, evalAny]
  | cons f rest =>
      have first : f.eval v = f.eval v' := by
        apply eval_congr f
        intro a member
        apply agree
        rw [gatherAll, mem_gather]
        exact .inl member
      have later : evalAll v rest = evalAll v' rest ∧ evalAny v rest = evalAny v' rest := by
        apply evalAll_congr rest
        intro a member
        apply agree
        rw [gatherAll, mem_gather]
        exact .inr member
      simp only [evalAll, evalAny, first, later, and_self]

end

/-! ## Formulas over atoms of one kind -/

/-- All atoms of a formula are of a kind. -/
def Uses (P : Atom → Prop) (f : Formula) : Prop :=
  ∀ a ∈ f.occurrences, P a

variable {P : Atom → Prop}

theorem uses_atom {a : Atom} (holds : P a) : Uses P (.atom a) := by
  intro b member
  obtain rfl : b = a := by simpa [occurrences, gather] using member
  exact holds

theorem uses_and_iff {fs : List Formula} : Uses P (.and fs) ↔ ∀ f ∈ fs, Uses P f := by
  constructor
  · intro uses f member a occurs
    exact uses a (mem_gatherAll_nil.mpr ⟨f, member, occurs⟩)
  · intro uses a occurs
    rcases mem_gatherAll_nil.mp occurs with ⟨f, member, occurs⟩
    exact uses f member a occurs

theorem uses_or_iff {fs : List Formula} : Uses P (.or fs) ↔ ∀ f ∈ fs, Uses P f :=
  uses_and_iff

theorem uses_constant (value : Bool) : Uses P (constant value) := by
  cases value
  · exact uses_or_iff.mpr (by simp)
  · exact uses_and_iff.mpr (by simp)

theorem uses_neg {f : Formula} (uses : Uses P f) : Uses P f.neg := by
  unfold neg
  split
  · exact uses
  · exact uses_or_iff.mpr (by simp)
  · exact uses_and_iff.mpr (by simp)
  · exact uses

theorem uses_conj {fs : List Formula} (uses : ∀ f ∈ fs, Uses P f) : Uses P (conj fs) := by
  have flattened : ∀ f ∈ fs.flatMap conjuncts, Uses P f := by
    intro f member
    rcases List.mem_flatMap.mp member with ⟨g, fromList, member⟩
    have usesAll := uses g fromList
    unfold conjuncts at member
    split at member
    · exact uses_and_iff.mp usesAll f member
    · obtain rfl := List.mem_singleton.mp member
      exact usesAll
  unfold conj
  split
  · exact uses_constant false
  split
  · rename_i single
    exact flattened _ (single ▸ List.mem_cons_self)
  · exact uses_and_iff.mpr flattened

/-- Unless an operand is false, a conjunction keeps all atoms of its operands. -/
theorem mem_occurrences_conj {fs : List Formula} {a : Atom} (possible : fs.any isFalse = false)
    {f : Formula} (member : f ∈ fs) (occurs : a ∈ f.occurrences) : a ∈ (conj fs).occurrences := by
  have flattened : ∃ g ∈ fs.flatMap conjuncts, a ∈ g.occurrences := by
    have contributed : ∃ g ∈ f.conjuncts, a ∈ g.occurrences := by
      unfold conjuncts
      split
      · exact mem_gatherAll_nil.mp occurs
      · exact ⟨f, List.mem_cons_self, occurs⟩
    obtain ⟨g, part, occurs⟩ := contributed
    exact ⟨g, List.mem_flatMap.mpr ⟨f, member, part⟩, occurs⟩
  unfold conj
  rw [possible, if_neg Bool.false_ne_true]
  split
  · rename_i single
    rw [single] at flattened
    simpa using flattened
  · exact mem_gatherAll_nil.mpr flattened

theorem uses_disj {fs : List Formula} (uses : ∀ f ∈ fs, Uses P f) : Uses P (disj fs) := by
  have flattened : ∀ f ∈ fs.flatMap disjuncts, Uses P f := by
    intro f member
    rcases List.mem_flatMap.mp member with ⟨g, fromList, member⟩
    have usesAll := uses g fromList
    unfold disjuncts at member
    split at member
    · exact uses_or_iff.mp usesAll f member
    · obtain rfl := List.mem_singleton.mp member
      exact usesAll
  unfold disj
  split
  · exact uses_constant true
  split
  · rename_i single
    exact flattened _ (single ▸ List.mem_cons_self)
  · exact uses_or_iff.mpr flattened

theorem uses_iff {f g : Formula} (left : Uses P f) (right : Uses P g) : Uses P (iff f g) := by
  refine uses_disj (List.forall_mem_cons.mpr ⟨uses_conj ?_, List.forall_mem_singleton.mpr
    (uses_conj ?_)⟩)
  · simpa using ⟨left, right⟩
  · simpa using ⟨uses_neg left, uses_neg right⟩

mutual

/-- Of the atoms of a formula all but the fixed one may be left. -/
theorem uses_substitute_of_ne {fixed : Atom} {value : Bool} (f : Formula)
    (uses : Uses (fun a => a ≠ fixed → P a) f) : Uses P (f.substitute fixed value) := by
  cases f with
  | atom a =>
      unfold substitute
      split
      · exact uses_constant value
      · rename_i other
        exact uses_atom (uses a (by simp [occurrences, gather]) other)
  | not body => exact uses_neg (uses_substitute_of_ne body uses)
  | and operands =>
      rw [substitute]
      exact uses_conj (uses_substituteAll_of_ne operands (uses_and_iff.mp uses))
  | or operands =>
      rw [substitute]
      exact uses_disj (uses_substituteAll_of_ne operands (uses_or_iff.mp uses))

theorem uses_substituteAll_of_ne {fixed : Atom} {value : Bool} (operands : List Formula)
    (uses : ∀ f ∈ operands, Uses (fun a => a ≠ fixed → P a) f) :
    ∀ f ∈ substituteAll fixed value operands, Uses P f := by
  cases operands with
  | nil => simp [substituteAll]
  | cons f rest =>
      rcases List.forall_mem_cons.mp uses with ⟨first, later⟩
      rw [substituteAll]
      exact List.forall_mem_cons.mpr
        ⟨uses_substitute_of_ne f first, uses_substituteAll_of_ne rest later⟩

end

theorem uses_substitute {fixed : Atom} {value : Bool} (f : Formula) (uses : Uses P f) :
    Uses P (f.substitute fixed value) :=
  uses_substitute_of_ne f fun a occurs _ => uses a occurs

theorem mem_atoms_of_mem_substitute {fixed : Atom} {value : Bool} {f : Formula} {a : Atom}
    (member : a ∈ (f.substitute fixed value).atoms) : a ≠ fixed ∧ a ∈ f.atoms := by
  have others : Uses (fun a => a ≠ fixed ∧ a ∈ f.atoms) (f.substitute fixed value) :=
    uses_substitute_of_ne f fun _ occurs other => ⟨other, mem_atoms.mpr occurs⟩
  exact others a (mem_atoms.mp member)

/-- A fixed atom is gone. -/
theorem not_mem_atoms_substitute (fixed : Atom) (value : Bool) (f : Formula) :
    fixed ∉ (f.substitute fixed value).atoms :=
  fun member => (mem_atoms_of_mem_substitute member).1 rfl

end Trivalent.Formula
