import Trivalent.Proofs.Formula.Writing

/-!
# Formulas made by the folding constructors

Formulas are not written down as trees but made of atoms and constants by operations that fold them.
None of these operations leaves a conjunction or disjunction with a single operand, so the formulas
that they make are told by their texts.
-/

namespace Trivalent.Formula

/-- A formula made of atoms and constants by the folding operations. -/
inductive Built : Formula → Prop where
  | atom (a : Atom) : Built (.atom a)
  | constant (value : Bool) : Built (.constant value)
  | neg {f : Formula} : Built f → Built f.neg
  | conj {fs : List Formula} : (∀ f ∈ fs, Built f) → Built (.conj fs)
  | disj {fs : List Formula} : (∀ f ∈ fs, Built f) → Built (.disj fs)
  | iff {f g : Formula} : Built f → Built g → Built (f.iff g)
  | implies {f g : Formula} : Built f → Built g → Built (f.implies g)
  | substitute {f : Formula} (fixed : Atom) (value : Bool) :
      Built f → Built (f.substitute fixed value)
  | shift {f : Formula} (steps : Nat) : Built f → Built (f.shift steps)

namespace Plural

variable {f g : Formula} {fs : List Formula}

theorem constant (value : Bool) : (Formula.constant value).Plural := by
  cases value
  · exact .or (by decide) (by simp)
  · exact .and (by decide) (by simp)

theorem neg (plural : f.Plural) : f.neg.Plural := by
  unfold Formula.neg
  split
  · cases plural with
    | not inner => exact inner
  · exact constant false
  · exact constant true
  · exact .not plural

theorem of_mem_conjuncts (plural : f.Plural) : ∀ g ∈ f.conjuncts, g.Plural := by
  unfold conjuncts
  split
  · cases plural with
    | and _ each => exact each
  · simpa using plural

theorem of_mem_disjuncts (plural : f.Plural) : ∀ g ∈ f.disjuncts, g.Plural := by
  unfold disjuncts
  split
  · cases plural with
    | or _ each => exact each
  · simpa using plural

/-- A single operand stands for itself. -/
theorem ofWritten {make : List Formula → Formula}
    (made : fs.length ≠ 1 → (∀ f ∈ fs, f.Plural) → (make fs).Plural) (each : ∀ f ∈ fs, f.Plural) :
    (ofWritten make fs).Plural := by
  unfold Formula.ofWritten
  split
  · exact each _ List.mem_cons_self
  · rename_i several
    apply made _ each
    intro one
    obtain ⟨f, single⟩ := List.length_eq_one_iff.mp one
    exact several f single

theorem conj (each : ∀ f ∈ fs, f.Plural) : (Formula.conj fs).Plural := by
  have merged : ∀ g ∈ fs.flatMap conjuncts, g.Plural := by
    intro g member
    rw [List.mem_flatMap] at member
    obtain ⟨f, listed, member⟩ := member
    exact (each f listed).of_mem_conjuncts g member
  unfold Formula.conj
  split
  · exact constant false
  · exact ofWritten .and merged

theorem disj (each : ∀ f ∈ fs, f.Plural) : (Formula.disj fs).Plural := by
  have merged : ∀ g ∈ fs.flatMap disjuncts, g.Plural := by
    intro g member
    rw [List.mem_flatMap] at member
    obtain ⟨f, listed, member⟩ := member
    exact (each f listed).of_mem_disjuncts g member
  unfold Formula.disj
  split
  · exact constant true
  · exact ofWritten .or merged

theorem iff (left : f.Plural) (right : g.Plural) : (f.iff g).Plural := by
  have both : (Formula.conj [f, g]).Plural := conj (by simpa using ⟨left, right⟩)
  have neither : (Formula.conj [f.neg, g.neg]).Plural := conj (by simpa using ⟨left.neg, right.neg⟩)
  exact disj (by simpa using ⟨both, neither⟩)

theorem implies (left : f.Plural) (right : g.Plural) : (f.implies g).Plural :=
  disj (by simpa using ⟨left.neg, right⟩)

theorem substitute (fixed : Atom) (value : Bool) (plural : f.Plural) :
    (f.substitute fixed value).Plural := by
  induction plural with
  | atom a =>
      rw [Formula.substitute]
      split
      · exact constant value
      · exact .atom a
  | not _ ih => exact ih.neg
  | and _ _ ih =>
      rw [Formula.substitute, substituteAll_eq_map]
      exact conj (by simpa using ih)
  | or _ _ ih =>
      rw [Formula.substitute, substituteAll_eq_map]
      exact disj (by simpa using ih)

theorem shift (steps : Nat) (plural : f.Plural) : (f.shift steps).Plural := by
  induction plural with
  | atom a => exact .atom (a.shift steps)
  | not _ ih => exact .not ih
  | and several _ ih =>
      rw [Formula.shift, shiftAll_eq_map]
      exact .and (by simpa using several) (by simpa using ih)
  | or several _ ih =>
      rw [Formula.shift, shiftAll_eq_map]
      exact .or (by simpa using several) (by simpa using ih)

end Plural

/-- The folding operations make no formula with a single operand. -/
theorem Built.plural {f : Formula} (built : f.Built) : f.Plural := by
  induction built with
  | atom a => exact .atom a
  | constant value => exact .constant value
  | neg _ ih => exact ih.neg
  | conj _ ih => exact .conj ih
  | disj _ ih => exact .disj ih
  | iff _ _ left right => exact left.iff right
  | implies _ _ left right => exact left.implies right
  | substitute fixed value _ ih => exact ih.substitute fixed value
  | shift steps _ ih => exact ih.shift steps

namespace Built

variable {f g : Formula}

theorem pair (left : f.Built) (right : g.Built) : ∀ h ∈ [f, g], h.Built := by
  simpa using ⟨left, right⟩

/-- Moving a formula as far as words reach is moving it. -/
theorem of_shiftWord {steps : Nat} (built : f.Built) (moved : f.shiftWord steps = .ok g) :
    g.Built := by
  obtain ⟨_, rfl⟩ := shiftWord_eq_ok_iff.mp moved
  exact built.shift steps

end Built

end Trivalent.Formula
