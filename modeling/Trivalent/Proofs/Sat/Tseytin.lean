import Mathlib.Tactic.Common
import Trivalent.Proofs.Formula.Evaluation
import Trivalent.Sat.Tseytin

/-!
# The Tseytin transformation is exact

Every variable stands for a formula: an atom, or the conjunction or disjunction that it was made
for.  So a valuation of the atoms gives every variable a value.  The clauses of a translation hold
for these values where the formulas are true that were translated; and where the clauses hold, no
other values fit the atoms.
-/

namespace Trivalent.Sat

/-! ## What variables stand for -/

/-- What the variables of a numbering stand for, the first variable first. -/
abbrev Meanings : Type :=
  List Formula

namespace Meanings

/-- The values of the variables under a valuation of the atoms. -/
def values (meanings : Meanings) (a : Valuation) : Nat → Bool := fun i =>
  match meanings[i]? with
  | some f => f.eval a
  | none => false

/-- Values of the variables are those under a valuation. -/
def Fit (meanings : Meanings) (v : Nat → Bool) (a : Valuation) : Prop :=
  ∀ i f, meanings[i]? = some f → v i = f.eval a

/-- Values of the variables are those under a valuation as far as they stand for atoms. -/
def FitAtoms (meanings : Meanings) (v : Nat → Bool) (a : Valuation) : Prop :=
  ∀ i b, meanings[i]? = some (.atom b) → v i = a b

variable {meanings : Meanings} {v : Nat → Bool} {a : Valuation} {i : Nat} {f : Formula}

theorem getElem?_append_of_some (isMeaning : meanings[i]? = some f) (more : Meanings) :
    (meanings ++ more)[i]? = some f := by
  rwa [List.getElem?_append_left (List.getElem?_eq_some_iff.mp isMeaning).1]

theorem getElem?_concat_eq_some {g : Formula} :
    (meanings ++ [f])[i]? = some g ↔ meanings[i]? = some g ∨ i = meanings.length ∧ f = g := by
  rcases Nat.lt_trichotomy i meanings.length with old | rfl | beyond
  · simp [List.getElem?_append_left old, Nat.ne_of_lt old]
  · simp
  · have noOld : meanings[i]? = none := List.getElem?_eq_none (Nat.le_of_lt beyond)
    have noNew : (meanings ++ [f])[i]? = none :=
      List.getElem?_eq_none (by rw [List.length_append]; exact beyond)
    simp [noOld, noNew, Nat.ne_of_gt beyond]

theorem fit_values (meanings : Meanings) (a : Valuation) : meanings.Fit (meanings.values a) a := by
  intro i f isMeaning
  rw [values, isMeaning]

theorem fit_append_singleton :
    (meanings ++ [f] : Meanings).Fit v a ↔ meanings.Fit v a ∧ v meanings.length = f.eval a := by
  constructor
  · intro fit
    exact ⟨fun i g isMeaning => fit i g (getElem?_append_of_some isMeaning [f]),
      fit _ f List.getElem?_concat_length⟩
  · rintro ⟨fit, isValue⟩ i g isMeaning
    rcases getElem?_concat_eq_some.mp isMeaning with old | ⟨rfl, rfl⟩
    · exact fit i g old
    · exact isValue

theorem FitAtoms.left {more : Meanings} (fit : (meanings ++ more : Meanings).FitAtoms v a) :
    meanings.FitAtoms v a :=
  fun i b isMeaning => fit i b (getElem?_append_of_some isMeaning more)

/-- The values of old variables do not depend on what new ones stand for. -/
theorem values_append (old : i < meanings.length) (more : Meanings) :
    (meanings ++ more : Meanings).values a i = meanings.values a i := by
  rw [values, values, List.getElem?_append_left old]

end Meanings

/-- The literal is equivalent to a formula, by what its variable stands for. -/
def Literal.Means (l : Literal) (meanings : Meanings) (f : Formula) : Prop :=
  ∃ g, meanings[l.var]? = some g ∧ ∀ a, (g.eval a == l.positive) = f.eval a

namespace Literal

variable {l : Literal} {meanings : Meanings} {f : Formula}

theorem means_of {i : Nat} (isMeaning : meanings[i]? = some f) : (of i).Means meanings f :=
  ⟨f, isMeaning, fun _ => by simp [of]⟩

theorem Means.append (means : l.Means meanings f) (more : Meanings) :
    l.Means (meanings ++ more) f := by
  obtain ⟨g, isMeaning, same⟩ := means
  exact ⟨g, Meanings.getElem?_append_of_some isMeaning more, same⟩

theorem Means.negate (means : l.Means meanings f) : l.negate.Means meanings (.not f) := by
  obtain ⟨g, isMeaning, same⟩ := means
  refine ⟨g, isMeaning, fun a => ?_⟩
  rw [Formula.eval_not, ← same a]
  cases g.eval a <;> cases h : l.positive <;> simp [Literal.negate, h]

theorem Means.var_lt (means : l.Means meanings f) : l.var < meanings.length := by
  obtain ⟨_, isMeaning, _⟩ := means
  exact (List.getElem?_eq_some_iff.mp isMeaning).1

theorem Means.eval_eq (means : l.Means meanings f) {v : Nat → Bool} {a : Valuation}
    (fit : meanings.Fit v a) : l.eval v = f.eval a := by
  obtain ⟨_, isMeaning, same⟩ := means
  rw [Literal.eval, fit _ _ isMeaning, same]

end Literal

/-- Literals are equivalent to formulas, one after the other. -/
abbrev MeanAll (ls : List Literal) (meanings : Meanings) (fs : List Formula) : Prop :=
  List.Forall₂ (fun l f => l.Means meanings f) ls fs

section MeanAll

variable {ls : List Literal} {meanings : Meanings} {fs : List Formula} {v : Nat → Bool}
  {a : Valuation}

theorem MeanAll.var_lt (means : MeanAll ls meanings fs) : ∀ l ∈ ls, l.var < meanings.length := by
  induction means with
  | nil => exact fun _ member => absurd member List.not_mem_nil
  | cons first _ ih => exact List.forall_mem_cons.mpr ⟨first.var_lt, ih⟩

theorem MeanAll.map_eval_eq (means : MeanAll ls meanings fs) (fit : meanings.Fit v a) :
    ls.map (Literal.eval v) = fs.map (Formula.eval a) := by
  induction means with
  | nil => rfl
  | cons first _ ih => rw [List.map_cons, List.map_cons, first.eval_eq fit, ih]

end MeanAll

/-! ## Clauses -/

/-- All clauses are true. -/
def Hold (clauses : List Clause) (v : Nat → Bool) : Prop :=
  ∀ clause ∈ clauses, clause.eval v = true

/-- No clause speaks of a variable from a number on. -/
def Below (clauses : List Clause) (vars : Nat) : Prop :=
  ∀ clause ∈ clauses, ∀ l ∈ clause, l.var < vars

theorem hold_append {clauses further : List Clause} {v : Nat → Bool} :
    Hold (clauses ++ further) v ↔ Hold clauses v ∧ Hold further v :=
  List.forall_mem_append

theorem below_append {clauses further : List Clause} {vars : Nat} :
    Below (clauses ++ further) vars ↔ Below clauses vars ∧ Below further vars :=
  List.forall_mem_append

theorem Below.mono {clauses : List Clause} {vars vars' : Nat} (below : Below clauses vars)
    (le : vars ≤ vars') : Below clauses vars' :=
  fun clause member l listed => Nat.lt_of_lt_of_le (below clause member l listed) le

/-- Variables that no clause speaks of do not matter. -/
theorem Below.hold_congr {clauses : List Clause} {vars : Nat} (below : Below clauses vars)
    {v v' : Nat → Bool} (agree : ∀ i < vars, v i = v' i) (hold : Hold clauses v) :
    Hold clauses v' := by
  intro clause member
  obtain ⟨l, listed, isTrue⟩ := List.any_eq_true.mp (hold clause member)
  refine List.any_eq_true.mpr ⟨l, listed, ?_⟩
  rwa [Literal.eval, ← agree l.var (below clause member l listed)]

/-- The clauses of a conjunction hold where the new literal has the value of the conjunction. -/
theorem hold_allOf_iff {olds : List Literal} {new : Literal} {v : Nat → Bool} :
    Hold (allOf olds new) v ↔ new.eval v = olds.all (Literal.eval v) := by
  have each : Hold (olds.map fun old => [old, new.negate]) v ↔
      (new.eval v = true → olds.all (Literal.eval v) = true) := by
    rw [List.all_eq_true]
    simp only [Hold, List.forall_mem_map, Clause.eval, List.any_cons, List.any_nil,
      Literal.eval_negate, Bool.or_false, Bool.or_eq_true, Bool.not_eq_true']
    constructor
    · intro all isTrue l member
      exact (all l member).resolve_right (by simp [isTrue])
    · intro all l member
      cases isTrue : new.eval v with
      | false => exact .inr rfl
      | true => exact .inl (all isTrue l member)
  have last : Hold [olds.map Literal.negate ++ [new]] v ↔
      (olds.all (Literal.eval v) = true → new.eval v = true) := by
    have someFalse : (olds.map Literal.negate).any (Literal.eval v) =
        !olds.all (Literal.eval v) := by
      simp [List.any_map, Function.comp_def, List.not_all_eq_any_not]
    rw [Hold, List.forall_mem_singleton, Clause.eval, List.any_append, someFalse, List.any_cons,
      List.any_nil, Bool.or_false]
    cases olds.all (Literal.eval v) <;> simp
  rw [allOf, hold_append, each, last]
  exact ⟨fun ⟨forth, back⟩ => Bool.eq_iff_iff.mpr ⟨forth, back⟩,
    fun same => ⟨same.symm.trans, same.trans⟩⟩

/-- A disjunction is a negated conjunction of negations, and so are its clauses. -/
theorem anyOf_eq_allOf (olds : List Literal) (new : Literal) :
    anyOf olds new = allOf (olds.map Literal.negate) new.negate := by
  simp [anyOf, allOf, Function.comp_def]

theorem hold_anyOf_iff {olds : List Literal} {new : Literal} {v : Nat → Bool} :
    Hold (anyOf olds new) v ↔ new.eval v = olds.any (Literal.eval v) := by
  have noneTrue : (olds.map Literal.negate).all (Literal.eval v) =
      !olds.any (Literal.eval v) := by
    simp [List.all_map, Function.comp_def, List.not_any_eq_all_not]
  rw [anyOf_eq_allOf, hold_allOf_iff, noneTrue, Literal.eval_negate, Bool.not_inj_iff]

theorem below_allOf {olds : List Literal} {new : Literal} {vars : Nat} (isNew : new.var < vars)
    (areOld : ∀ old ∈ olds, old.var < vars) : Below (allOf olds new) vars := by
  refine below_append.mpr ⟨?_, ?_⟩
  · refine List.forall_mem_map.mpr fun old member => ?_
    exact List.forall_mem_cons.mpr ⟨areOld old member, List.forall_mem_singleton.mpr isNew⟩
  · refine List.forall_mem_singleton.mpr (List.forall_mem_append.mpr ⟨?_, ?_⟩)
    · exact List.forall_mem_map.mpr areOld
    · exact List.forall_mem_singleton.mpr isNew

theorem below_anyOf {olds : List Literal} {new : Literal} {vars : Nat} (isNew : new.var < vars)
    (areOld : ∀ old ∈ olds, old.var < vars) : Below (anyOf olds new) vars := by
  rw [anyOf_eq_allOf]
  exact below_allOf isNew (List.forall_mem_map.mpr areOld)

/-! ## What a translation keeps -/

/-- The variables of a numbering stand for formulas, and clauses say what they stand for and that
the formulas `held` are true. -/
structure Represents (held : List Formula) (meanings : Meanings) (context : Context)
    (clauses : List Clause) : Prop where
  /-- Every variable stands for a formula. -/
  vars : context.vars = meanings.length
  /-- An atom has the only variable that stands for it. -/
  indices : ∀ b i, context.indices[b]? = some i ↔ meanings[i]? = some (Formula.atom b)
  /-- The clauses speak of these variables. -/
  below : Below clauses meanings.length
  /-- The clauses hold wherever the formulas are true. -/
  hold : ∀ a, (∀ f ∈ held, f.eval a = true) → Hold clauses (meanings.values a)
  /-- The values of atoms decide those of all variables, and the formulas are true. -/
  fit : ∀ v a, meanings.FitAtoms v a → Hold clauses v →
    meanings.Fit v a ∧ ∀ f ∈ held, f.eval a = true

theorem represents_empty : Represents [] [] .empty [] where
  vars := rfl
  indices _ _ := by simp [Context.empty]
  below _ member := absurd member List.not_mem_nil
  hold _ _ _ member := absurd member List.not_mem_nil
  fit _ _ _ _ := ⟨fun _ _ => nofun, fun _ member => absurd member List.not_mem_nil⟩

namespace Represents

variable {held : List Formula} {meanings : Meanings} {context : Context} {clauses : List Clause}

/-- A new variable stands for a formula if its clauses hold for the value of the formula, and for no
other value. -/
theorem extend (represents : Represents held meanings context clauses) {f : Formula}
    {indices : Std.HashMap Atom Nat} (defining : List Clause)
    (isIndices : ∀ b i, indices[b]? = some i ↔ (meanings ++ [f])[i]? = some (Formula.atom b))
    (below : Below defining (meanings.length + 1))
    (hold : ∀ v a, meanings.Fit v a → v meanings.length = f.eval a → Hold defining v)
    (fit : ∀ v a, (meanings ++ [f] : Meanings).FitAtoms v a → meanings.Fit v a → Hold defining v →
      v meanings.length = f.eval a) :
    Represents held (meanings ++ [f]) ⟨indices, context.vars + 1⟩ (clauses ++ defining) where
  vars := by rw [represents.vars, List.length_append, List.length_singleton]
  indices := isIndices
  below := by
    rw [List.length_append, List.length_singleton]
    exact below_append.mpr ⟨represents.below.mono (Nat.le_succ _), below⟩
  hold a isTrue := by
    obtain ⟨fitOld, isValue⟩ :=
      Meanings.fit_append_singleton.mp (Meanings.fit_values (meanings ++ [f]) a)
    refine hold_append.mpr ⟨?_, hold _ a fitOld isValue⟩
    refine represents.below.hold_congr (fun i old => ?_) (represents.hold a isTrue)
    exact (Meanings.values_append old [f]).symm
  fit v a fitAtoms holds := by
    obtain ⟨holdsOld, holdsNew⟩ := hold_append.mp holds
    obtain ⟨fitOld, isTrue⟩ := represents.fit v a fitAtoms.left holdsOld
    exact ⟨Meanings.fit_append_singleton.mpr ⟨fitOld, fit v a fitAtoms fitOld holdsNew⟩, isTrue⟩

/-- An atom gets a variable that stands for it. -/
theorem getVar (represents : Represents held meanings context clauses) (b : Atom) :
    ∃ more, Represents held (meanings ++ more) (context.getVar b).2 clauses ∧
      (Literal.of (context.getVar b).1).Means (meanings ++ more) (.atom b) := by
  unfold Context.getVar
  split
  · rename_i i isIndex
    refine ⟨[], ?_, ?_⟩
    · rwa [List.append_nil]
    · rw [List.append_nil]
      exact Literal.means_of ((represents.indices b i).mp isIndex)
  · rename_i isNew
    have isIndices (c : Atom) (i : Nat) :
        (context.indices.insert b context.vars)[c]? = some i ↔
          (meanings ++ [.atom b])[i]? = some (Formula.atom c) := by
      rw [Std.HashMap.getElem?_insert, represents.vars, Meanings.getElem?_concat_eq_some,
        ← represents.indices]
      split
      · rename_i same
        obtain rfl := eq_of_beq same
        simp [isNew, eq_comm]
      · rename_i other
        simp [show b ≠ c by simpa using other]
    refine ⟨[.atom b], ?_, Literal.means_of ?_⟩
    · have extended := represents.extend [] isIndices ?_ ?_ ?_
      · rwa [List.append_nil] at extended
      · exact fun _ member => absurd member List.not_mem_nil
      · exact fun _ _ _ _ _ member => absurd member List.not_mem_nil
      · intro v a fitAtoms _ _
        exact fitAtoms _ b List.getElem?_concat_length
    · rw [Context.newVar, represents.vars]
      exact List.getElem?_concat_length

/-- A formula is required to be true by the clause of its literal. -/
theorem require (represents : Represents held meanings context clauses) {l : Literal}
    {f : Formula} (means : l.Means meanings f) :
    Represents (held ++ [f]) meanings context (clauses ++ [[l]]) where
  vars := represents.vars
  indices := represents.indices
  below := by
    refine below_append.mpr ⟨represents.below, ?_⟩
    exact List.forall_mem_singleton.mpr (List.forall_mem_singleton.mpr means.var_lt)
  hold a isTrue := by
    obtain ⟨heldTrue, isTrue⟩ := List.forall_mem_append.mp isTrue
    refine hold_append.mpr ⟨represents.hold a heldTrue, List.forall_mem_singleton.mpr ?_⟩
    rw [Clause.eval, List.any_cons, List.any_nil, Bool.or_false,
      means.eval_eq (meanings.fit_values a)]
    exact isTrue f (List.mem_singleton_self f)
  fit v a fitAtoms holds := by
    obtain ⟨holdsOld, holdsNew⟩ := hold_append.mp holds
    obtain ⟨fit, isTrue⟩ := represents.fit v a fitAtoms holdsOld
    have litTrue := List.forall_mem_singleton.mp holdsNew
    rw [Clause.eval, List.any_cons, List.any_nil, Bool.or_false, means.eval_eq fit] at litTrue
    exact ⟨fit, List.forall_mem_append.mpr ⟨isTrue, List.forall_mem_singleton.mpr litTrue⟩⟩

/-- A variable is made for a formula that is a function of operands with literals. -/
theorem define {earlier : List Clause} {t : Translation}
    (represents : Represents held meanings t.context (earlier ++ t.out.toList))
    {olds : List Literal} {operands : List Formula} (means : MeanAll olds meanings operands)
    (f : Formula) (value : List Bool → Bool) {defining : Literal → List Clause}
    (compound : ∀ b, f ≠ .atom b) (isValue : ∀ a, f.eval a = value (operands.map (Formula.eval a)))
    (below : ∀ new : Literal, new.var < meanings.length + 1 →
      (∀ old ∈ olds, old.var < meanings.length + 1) → Below (defining new) (meanings.length + 1))
    (hold_iff : ∀ (v : Nat → Bool) (new : Literal),
      Hold (defining new) v ↔ new.eval v = value (olds.map (Literal.eval v))) :
    ∃ more, Represents held (meanings ++ more) (t.define defining).2.context
        (earlier ++ (t.define defining).2.out.toList) ∧
      (t.define defining).1.Means (meanings ++ more) f := by
  have isIndices (b : Atom) (i : Nat) :
      t.context.indices[b]? = some i ↔ (meanings ++ [f])[i]? = some (Formula.atom b) := by
    rw [represents.indices, Meanings.getElem?_concat_eq_some]
    exact ⟨.inl, fun found => found.resolve_right fun ⟨_, isAtom⟩ => compound b isAtom⟩
  have defines (v : Nat → Bool) (a : Valuation) (fit : meanings.Fit v a) :
      Hold (defining (.of meanings.length)) v ↔ v meanings.length = f.eval a := by
    rw [hold_iff, Literal.eval_of, means.map_eval_eq fit, isValue]
  have isOut : earlier ++ (t.define defining).2.out.toList =
      earlier ++ t.out.toList ++ defining (.of meanings.length) := by
    simp [Translation.define, Context.newVar, represents.vars]
  refine ⟨[f], ?_, ?_⟩
  · rw [isOut]
    refine represents.extend _ isIndices (below _ (Nat.lt_succ_self _) fun old member => ?_)
      (fun v a fit => (defines v a fit).mpr) (fun v a _ fit => (defines v a fit).mp)
    exact Nat.lt_succ_of_lt (means.var_lt old member)
  · show (Literal.of t.context.vars).Means _ f
    rw [represents.vars]
    exact Literal.means_of List.getElem?_concat_length

end Represents

/-! ## Translated formulas -/

variable {held : List Formula} {earlier : List Clause}

mutual

/-- The literal of a formula is equivalent to it. -/
theorem Represents.inner {t : Translation} {meanings : Meanings}
    (represents : Represents held meanings t.context (earlier ++ t.out.toList)) (f : Formula) :
    ∃ more, Represents held (meanings ++ more) (t.inner f).2.context
        (earlier ++ (t.inner f).2.out.toList) ∧
      (t.inner f).1.Means (meanings ++ more) f := by
  cases f with
  | atom b => exact represents.getVar b
  | not body =>
      obtain ⟨more, represented, means⟩ := represents.inner body
      exact ⟨more, represented, means.negate⟩
  | and operands =>
      obtain ⟨more, represented, means⟩ := represents.innerAll operands
      obtain ⟨last, defined⟩ := represented.define means (.and operands)
        (fun values => values.all id) (fun _ => nofun)
        (fun a => by rw [Formula.eval_and, List.all_map]; rfl) (fun _ => below_allOf)
        (fun v new => by rw [hold_allOf_iff, List.all_map]; rfl)
      refine ⟨more ++ last, ?_⟩
      rw [← List.append_assoc]
      exact defined
  | or operands =>
      obtain ⟨more, represented, means⟩ := represents.innerAll operands
      obtain ⟨last, defined⟩ := represented.define means (.or operands)
        (fun values => values.any id) (fun _ => nofun)
        (fun a => by rw [Formula.eval_or, List.any_map]; rfl) (fun _ => below_anyOf)
        (fun v new => by rw [hold_anyOf_iff, List.any_map]; rfl)
      refine ⟨more ++ last, ?_⟩
      rw [← List.append_assoc]
      exact defined

theorem Represents.innerAll {t : Translation} {meanings : Meanings}
    (represents : Represents held meanings t.context (earlier ++ t.out.toList))
    (fs : List Formula) :
    ∃ more, Represents held (meanings ++ more) (t.innerAll fs).2.context
        (earlier ++ (t.innerAll fs).2.out.toList) ∧
      MeanAll (t.innerAll fs).1 (meanings ++ more) fs := by
  cases fs with
  | nil => exact ⟨[], by rwa [List.append_nil], .nil⟩
  | cons f rest =>
      obtain ⟨first, represented, means⟩ := represents.inner f
      obtain ⟨more, representedAll, meanAll⟩ := represented.innerAll rest
      refine ⟨first ++ more, ?_⟩
      rw [← List.append_assoc]
      exact ⟨representedAll, .cons (means.append more) meanAll⟩

end

/-- With the clauses of a formula, the formula is required to be true as well. -/
theorem Represents.tseytin {context : Context} {meanings : Meanings} {clauses : List Clause}
    (represents : Represents held meanings context clauses) (f : Formula) :
    ∃ more, Represents (held ++ [f]) (meanings ++ more) (tseytin f context).2
      (clauses ++ (tseytin f context).1) := by
  obtain ⟨more, represented, means⟩ :=
    Represents.inner (t := ⟨context, #[]⟩) (by rwa [List.append_nil]) f
  refine ⟨more, ?_⟩
  have isOut : clauses ++ (Sat.tseytin f context).1 =
      clauses ++ (Translation.inner ⟨context, #[]⟩ f).2.out.toList ++
        [[(Translation.inner ⟨context, #[]⟩ f).1]] := by
    simp [Sat.tseytin]
  rw [isOut]
  exact represented.require means

/-- The conjunction of an atom and a negated one: two variables for the atoms, and a third one for the
conjunction. -/
example : (tseytin (.and [.atom (.record 0), .not (.atom (.record 1))]) .empty).1.map
    (·.map Literal.dimacs) = [[1, -3], [-2, -3], [-1, 2, 3], [3]] := by
  cbv

/-! ## Values of the atoms -/

variable {context : Context} {meanings : Meanings} {clauses : List Clause} {v : Nat → Bool}

/-- The values of the atoms are read off the values of their variables. -/
theorem Represents.fitAtoms_onAtoms (represents : Represents held meanings context clauses)
    (v : Nat → Bool) : meanings.FitAtoms v (context.onAtoms v) := by
  intro i b isMeaning
  rw [Context.onAtoms, (represents.indices b i).mpr isMeaning]

/-- Where the clauses hold, the atoms have values for which the formulas are true. -/
theorem Represents.eval_onAtoms (represents : Represents held meanings context clauses)
    (holds : Hold clauses v) : ∀ f ∈ held, f.eval (context.onAtoms v) = true :=
  (represents.fit v _ (represents.fitAtoms_onAtoms v) holds).2

/-- The clauses can be satisfied exactly if the formulas can be true together. -/
theorem Represents.exists_hold_iff (represents : Represents held meanings context clauses) :
    (∃ v, Hold clauses v) ↔ ∃ a : Valuation, ∀ f ∈ held, f.eval a = true :=
  ⟨fun ⟨_, holds⟩ => ⟨_, represents.eval_onAtoms holds⟩,
    fun ⟨a, all⟩ => ⟨_, represents.hold a all⟩⟩

end Trivalent.Sat
