import Mathlib.Logic.Relation
import Trivalent.Proofs.Formula.Denotation

/-!
# Constant values

The constant value of a formula, where it has one, is its value under every valuation.  But operands
are looked at from left to right, and an undecided one ends the search: whether a false operand makes
a conjunction false depends on what stands before it.  `mayTell` says which constant values a formula
has when the operands of its conjunctions and disjunctions are put in other orders; the constant value
does not depend on the order exactly if there is just one.
-/

namespace Trivalent.Formula

open Relation (ReflTransGen)

/-! ## The first operand that decides -/

/-- A conjunction, if the unit is true, and else a disjunction. -/
def node (unit : Bool) (operands : List Formula) : Formula :=
  if unit then .and operands else .or operands

/-- The first value that is not the unit decides; if there is none it is the unit. -/
def firstDeciding (unit : Bool) (values : List (Option Bool)) : Option Bool :=
  (values.find? (· ≠ some unit)).getD (some unit)

theorem firstDeciding_cons (unit : Bool) (t : Option Bool) (rest : List (Option Bool)) :
    firstDeciding unit (t :: rest) = if t = some unit then firstDeciding unit rest else t := by
  by_cases isUnit : t = some unit
  · simp [firstDeciding, isUnit]
  · simp [firstDeciding, isUnit]

theorem truthAll_eq_firstDeciding (operands : List Formula) :
    truthAll operands = firstDeciding true (operands.map truth) := by
  induction operands with
  | nil => rfl
  | cons f rest ih =>
      rw [List.map_cons, firstDeciding_cons, ← ih, truthAll]
      cases f.truth with
      | none => rfl
      | some value => cases value <;> rfl

theorem truthAny_eq_firstDeciding (operands : List Formula) :
    truthAny operands = firstDeciding false (operands.map truth) := by
  induction operands with
  | nil => rfl
  | cons f rest ih =>
      rw [List.map_cons, firstDeciding_cons, ← ih, truthAny]
      cases f.truth with
      | none => rfl
      | some value => cases value <;> rfl

/-- The constant value of a conjunction or disjunction is that of its first operand that decides. -/
theorem truth_node (unit : Bool) (operands : List Formula) :
    (node unit operands).truth = firstDeciding unit (operands.map truth) := by
  cases unit with
  | true => exact truthAll_eq_firstDeciding operands
  | false => exact truthAny_eq_firstDeciding operands

theorem firstDeciding_eq_unit_iff {unit : Bool} {values : List (Option Bool)} :
    firstDeciding unit values = some unit ↔ ∀ t ∈ values, t = some unit := by
  unfold firstDeciding
  constructor
  · intro found
    cases search : values.find? (· ≠ some unit) with
    | none => simpa using search
    | some t =>
        have decides := List.find?_some search
        simp_all
  · intro same
    rw [List.find?_eq_none.mpr (by simpa using same)]
    rfl

theorem firstDeciding_eq_iff {unit : Bool} {values : List (Option Bool)} {t : Option Bool}
    (decides : t ≠ some unit) :
    firstDeciding unit values = t ↔
      ∃ before after, values = before ++ t :: after ∧ ∀ s ∈ before, s = some unit := by
  have found : firstDeciding unit values = t ↔ values.find? (· ≠ some unit) = some t := by
    unfold firstDeciding
    cases values.find? (· ≠ some unit) with
    | none => simp [decides.symm]
    | some s => simp
  rw [found, List.find?_eq_some_iff_append]
  simp [decides]

theorem firstDeciding_mem {unit : Bool} {values : List (Option Bool)}
    (decides : firstDeciding unit values ≠ some unit) : firstDeciding unit values ∈ values := by
  induction values with
  | nil => exact absurd rfl decides
  | cons t rest ih =>
      rw [firstDeciding_cons] at decides ⊢
      split
      · rename_i isUnit
        rw [if_pos isUnit] at decides
        exact List.mem_cons_of_mem t (ih decides)
      · exact List.mem_cons_self

/-- A conjunction is false exactly if it has a false operand and those before it are true, and a
disjunction is true exactly if it has a true operand and those before it are false. -/
theorem truth_node_eq_iff {unit : Bool} {operands : List Formula} :
    (node unit operands).truth = some (!unit) ↔ ∃ before f after,
      operands = before ++ f :: after ∧ f.truth = some (!unit) ∧
        ∀ g ∈ before, g.truth = some unit := by
  rw [truth_node, firstDeciding_eq_iff (by simp)]
  constructor
  · rintro ⟨before, after, split, units⟩
    obtain ⟨front, back, rfl, rfl, isBack⟩ := List.map_eq_append_iff.mp split
    obtain ⟨f, rest, rfl, isFirst, rfl⟩ := List.map_eq_cons_iff.mp isBack
    exact ⟨front, f, rest, rfl, isFirst, by simpa using units⟩
  · rintro ⟨before, f, after, rfl, isFirst, units⟩
    exact ⟨before.map truth, after.map truth, by simp [isFirst], by simpa using units⟩

/-! ## Constant values are values -/

mutual

/-- A constant value is the value under every valuation. -/
theorem eval_of_truth {value : Bool} (v : Valuation) (f : Formula) (decided : f.truth = some value) :
    f.eval v = value := by
  cases f with
  | atom a => exact nomatch decided
  | not body =>
      obtain ⟨inner, isInner, rfl⟩ := Option.map_eq_some_iff.mp decided
      rw [eval_not, eval_of_truth v body isInner]
  | and operands =>
      rw [eval_and]
      exact all_of_truthAll v operands decided
  | or operands =>
      rw [eval_or]
      exact any_of_truthAny v operands decided

theorem all_of_truthAll {value : Bool} (v : Valuation) (operands : List Formula)
    (decided : truthAll operands = some value) : operands.all (eval v) = value := by
  cases operands with
  | nil => exact Option.some.inj decided
  | cons f rest =>
      unfold truthAll at decided
      split at decided
      · rename_i isTrue
        rw [List.all_cons, eval_of_truth v f isTrue, all_of_truthAll v rest decided, Bool.true_and]
      · rename_i notTrue
        have isFalse : value = false := by
          cases value with
          | false => rfl
          | true => exact absurd decided notTrue
        rw [List.all_cons, eval_of_truth v f decided, isFalse, Bool.false_and]

theorem any_of_truthAny {value : Bool} (v : Valuation) (operands : List Formula)
    (decided : truthAny operands = some value) : operands.any (eval v) = value := by
  cases operands with
  | nil => exact Option.some.inj decided
  | cons f rest =>
      unfold truthAny at decided
      split at decided
      · rename_i isFalse
        rw [List.any_cons, eval_of_truth v f isFalse, any_of_truthAny v rest decided, Bool.false_or]
      · rename_i notFalse
        have isTrue : value = true := by
          cases value with
          | true => rfl
          | false => exact absurd decided notFalse
        rw [List.any_cons, eval_of_truth v f decided, isTrue, Bool.true_or]

end

/-! ## Other orders -/

/-- The operands of one conjunction or disjunction, anywhere in a formula, are put in another
order. -/
inductive Reorders : Formula → Formula → Prop where
  | operands (unit : Bool) {fs gs : List Formula} :
      fs.Perm gs → Reorders (node unit fs) (node unit gs)
  | not {f g : Formula} : Reorders f g → Reorders (.not f) (.not g)
  | operand (unit : Bool) (before after : List Formula) {f g : Formula} :
      Reorders f g → Reorders (node unit (before ++ f :: after)) (node unit (before ++ g :: after))

/-- Operands are put in other orders, any number of times. -/
def Reordered : Formula → Formula → Prop :=
  ReflTransGen Reorders

theorem Reordered.not {f g : Formula} (reordered : Reordered f g) :
    Reordered (.not f) (.not g) :=
  reordered.lift Formula.not fun _ _ => Reorders.not

theorem Reordered.operand (unit : Bool) (before after : List Formula) {f g : Formula}
    (reordered : Reordered f g) :
    Reordered (node unit (before ++ f :: after)) (node unit (before ++ g :: after)) :=
  reordered.lift (fun f => Formula.node unit (before ++ f :: after))
    fun _ _ => Reorders.operand unit before after

/-- All operands of a conjunction or disjunction may be reordered together. -/
theorem Reordered.node (unit : Bool) {fs gs : List Formula} (each : List.Forall₂ Reordered fs gs) :
    Reordered (node unit fs) (node unit gs) := by
  have behind (before : List Formula) :
      Reordered (Formula.node unit (before ++ fs)) (Formula.node unit (before ++ gs)) := by
    induction each generalizing before with
    | nil => exact .refl
    | @cons f g fs gs first _ ih =>
        have later : Reordered (Formula.node unit (before ++ g :: fs))
            (Formula.node unit (before ++ g :: gs)) := by simpa using ih (before ++ [g])
        exact (first.operand unit before fs).trans later
  simpa using behind []

/-! ## The constant values of all orders -/

mutual

/-- Whether a formula has a constant value (none if it is undecided) in some order of its operands: a
conjunction is true if all its operands are, and has any other value that one of its operands has. -/
def mayTell (t : Option Bool) : Formula → Bool
  | .atom _ => t.isNone
  | .not body => body.mayTell (t.map (!·))
  | .and operands => if t = some true then allTell t operands else anyTells t operands
  | .or operands => if t = some false then allTell t operands else anyTells t operands

/-- Whether every formula of a list has a constant value in some order of its operands. -/
def allTell (t : Option Bool) : List Formula → Bool
  | [] => true
  | f :: rest => f.mayTell t && allTell t rest

/-- Whether some formula of a list has a constant value in some order of its operands. -/
def anyTells (t : Option Bool) : List Formula → Bool
  | [] => false
  | f :: rest => f.mayTell t || anyTells t rest

end

theorem allTell_eq_all (t : Option Bool) (operands : List Formula) :
    allTell t operands = operands.all (mayTell t) := by
  induction operands with
  | nil => rfl
  | cons f rest ih => simp [allTell, ih]

theorem anyTells_eq_any (t : Option Bool) (operands : List Formula) :
    anyTells t operands = operands.any (mayTell t) := by
  induction operands with
  | nil => rfl
  | cons f rest ih => simp [anyTells, ih]

theorem mayTell_node (unit : Bool) (t : Option Bool) (operands : List Formula) :
    (node unit operands).mayTell t =
      if t = some unit then operands.all (mayTell t) else operands.any (mayTell t) := by
  rw [← allTell_eq_all, ← anyTells_eq_any]
  cases unit <;> rfl

theorem map_not_map_not (t : Option Bool) : (t.map (!·)).map (!·) = t := by
  cases t <;> simp

/-- A formula tells its own constant value if its operands tell theirs. -/
theorem mayTell_truth_node (unit : Bool) {operands : List Formula}
    (each : ∀ f ∈ operands, f.mayTell f.truth = true) :
    (node unit operands).mayTell (node unit operands).truth = true := by
  rw [mayTell_node, truth_node]
  split
  · rename_i isUnit
    have units := firstDeciding_eq_unit_iff.mp isUnit
    rw [List.all_eq_true, isUnit]
    intro f member
    rw [← units f.truth (List.mem_map_of_mem member)]
    exact each f member
  · rename_i decides
    obtain ⟨f, member, same⟩ := List.mem_map.mp (firstDeciding_mem decides)
    exact List.any_eq_true.mpr ⟨f, member, same ▸ each f member⟩

mutual

theorem mayTell_truth (f : Formula) : f.mayTell f.truth = true := by
  cases f with
  | atom a => rfl
  | not body =>
      rw [truth, mayTell, map_not_map_not]
      exact mayTell_truth body
  | and operands => exact mayTell_truth_node true (mayTell_truth_of_mem operands)
  | or operands => exact mayTell_truth_node false (mayTell_truth_of_mem operands)

theorem mayTell_truth_of_mem (operands : List Formula) :
    ∀ f ∈ operands, f.mayTell f.truth = true := by
  cases operands with
  | nil => exact nofun
  | cons f rest => exact List.forall_mem_cons.mpr ⟨mayTell_truth f, mayTell_truth_of_mem rest⟩

end

/-- What a formula may tell does not depend on the order of operands. -/
theorem Reorders.mayTell_eq {f g : Formula} (reorders : Reorders f g) (t : Option Bool) :
    f.mayTell t = g.mayTell t := by
  induction reorders generalizing t with
  | operands unit perm =>
      rw [mayTell_node, mayTell_node, perm.all_eq, perm.any_eq]
  | not _ ih => exact ih (t.map (!·))
  | operand unit before after _ ih => simp [mayTell_node, ih]

theorem Reordered.mayTell_eq {f g : Formula} (reordered : Reordered f g) (t : Option Bool) :
    f.mayTell t = g.mayTell t := by
  induction reordered with
  | refl => rfl
  | tail _ last ih => rw [ih, last.mayTell_eq]

/-- Some order of the operands gives a conjunction or disjunction whatever it may tell, if that is so
for its operands. -/
theorem exists_reordered_node (unit : Bool) {t : Option Bool} {operands : List Formula}
    (each : ∀ f ∈ operands, f.mayTell t = true → ∃ g, Reordered f g ∧ g.truth = t)
    (tells : (node unit operands).mayTell t = true) :
    ∃ g, Reordered (node unit operands) g ∧ g.truth = t := by
  rw [mayTell_node] at tells
  split at tells
  · rename_i isUnit
    have reached : ∀ f ∈ operands, ∃ g, Reordered f g ∧ g.truth = t := by
      intro f member
      exact each f member (List.all_eq_true.mp tells f member)
    obtain ⟨gs, related⟩ := exists_forall₂_iff.mpr reached
    refine ⟨node unit gs, .node unit (related.imp fun _ _ both => both.1), ?_⟩
    rw [truth_node, isUnit, firstDeciding_eq_unit_iff]
    intro s listed
    obtain ⟨g, member, rfl⟩ := List.mem_map.mp listed
    obtain ⟨_, _, both⟩ := exists_of_mem_right related member
    rw [both.2, isUnit]
  · rename_i decides
    obtain ⟨f, member, tells⟩ := List.any_eq_true.mp tells
    obtain ⟨g, reordered, isTruth⟩ := each f member tells
    obtain ⟨before, after, rfl⟩ := List.append_of_mem member
    -- The operand that tells the value goes to the front, where it decides.
    have moved : Reordered (node unit (before ++ f :: after)) (node unit (f :: (before ++ after))) :=
      .single (.operands unit List.perm_middle)
    refine ⟨node unit (g :: (before ++ after)), moved.trans (reordered.operand unit [] _), ?_⟩
    rw [truth_node, firstDeciding_eq_iff decides]
    exact ⟨[], (before ++ after).map truth, by simp [isTruth], nofun⟩

mutual

theorem exists_reordered {t : Option Bool} (f : Formula) (tells : f.mayTell t = true) :
    ∃ g, Reordered f g ∧ g.truth = t := by
  cases f with
  | atom a => exact ⟨.atom a, .refl, (Option.isNone_iff_eq_none.mp tells).symm⟩
  | not body =>
      obtain ⟨g, reordered, isTruth⟩ := exists_reordered body tells
      exact ⟨.not g, reordered.not, by rw [truth, isTruth, map_not_map_not]⟩
  | and operands => exact exists_reordered_node true (exists_reordered_of_mem operands) tells
  | or operands => exact exists_reordered_node false (exists_reordered_of_mem operands) tells

theorem exists_reordered_of_mem {t : Option Bool} (operands : List Formula) :
    ∀ f ∈ operands, f.mayTell t = true → ∃ g, Reordered f g ∧ g.truth = t := by
  cases operands with
  | nil => exact nofun
  | cons f rest =>
      exact List.forall_mem_cons.mpr ⟨exists_reordered f, exists_reordered_of_mem rest⟩

end

theorem exists_reordered_iff {f : Formula} {t : Option Bool} :
    (∃ g, Reordered f g ∧ g.truth = t) ↔ f.mayTell t = true := by
  constructor
  · rintro ⟨g, reordered, rfl⟩
    rw [reordered.mayTell_eq]
    exact mayTell_truth g
  · exact exists_reordered f

/-- A constant value is the value under every valuation.  It is the same in every order of operands
exactly if the formula may tell nothing else.  A conjunction is false exactly if a false operand comes
before every operand that is undecided, and a disjunction is true exactly if a true one does. -/
theorem truth_steady_iff (f : Formula) :
    (∀ value, f.truth = some value → ∀ v, f.eval v = value) ∧
      ((∀ g, Reordered f g → g.truth = f.truth) ↔ ∀ t, f.mayTell t = true → t = f.truth) ∧
        ∀ unit operands, (node unit operands).truth = some (!unit) ↔ ∃ before g after,
          operands = before ++ g :: after ∧ g.truth = some (!unit) ∧
            ∀ h ∈ before, h.truth = some unit := by
  refine ⟨fun value decided v => eval_of_truth v f decided, ?steady, fun _ _ => truth_node_eq_iff⟩
  constructor
  · intro steady t tells
    obtain ⟨g, reordered, rfl⟩ := exists_reordered f tells
    exact steady g reordered
  · intro only g reordered
    exact only g.truth (exists_reordered_iff.mp ⟨g, reordered, rfl⟩)

/-- A conjunction of constants is false in every order of its operands. -/
theorem truth_steady_of_constants :
    (∀ v, (node true [.not (.or []), .not (.and [])]).eval v = false) ∧
      ∀ g, Reordered (node true [.not (.or []), .not (.and [])]) g → g.truth = some false := by
  obtain ⟨isValue, steady, decides⟩ := truth_steady_iff (node true [.not (.or []), .not (.and [])])
  have decided : (node true [.not (.or []), .not (.and [])]).truth = some false :=
    (decides true _).mpr ⟨[.not (.or [])], .not (.and []), [], rfl, by decide, by decide⟩
  refine ⟨isValue false decided, ?_⟩
  rw [← decided, steady]
  rintro (_ | _ | _) <;> decide

/-- A conjunction with a false operand may be undecided, and false in another order. -/
theorem exists_reorders_truth_ne :
    ∃ f g, Reorders f g ∧ (∀ v, f.eval v = false) ∧ f.truth = none ∧ g.truth = some false := by
  have swapped : [Formula.atom (.location 0 0 0 false), .or []].Perm
      [.or [], .atom (.location 0 0 0 false)] := .swap _ _ _
  refine ⟨_, _, .operands true swapped, fun v => ?_, rfl, rfl⟩
  simp [node]

end Trivalent.Formula
