import Mathlib.Data.List.Forall2
import Mathlib.Tactic.Common
import Trivalent.Proofs.Formula.Evaluation

/-!
# What computed formulas say

A formula that is computed may turn out to be a fault.  `Denotes computed P` tells that there is no
fault, and that the formula is true for exactly the valuations of which `P` holds; `Holds v computed`
that there is a formula and that `v` makes it true.
-/

namespace Trivalent

/-! ## Computations without failures -/

theorem bind_eq_ok_iff {ε α β : Type} {first : Except ε α} {second : α → Except ε β} {b : β} :
    first >>= second = .ok b ↔ ∃ a, first = .ok a ∧ second a = .ok b := by
  cases first with
  | error e => simp [bind, Except.bind]
  | ok a => simp [bind, Except.bind]

/-- A computation that succeeds has its own result. -/
theorem eq_ok_getD {ε α : Type} {computed : Except ε α} (succeeds : computed.isOk) (a : α) :
    computed = .ok (computed.toOption.getD a) := by
  cases computed with
  | error e => exact nomatch succeeds
  | ok a' => rfl

/-- An entry of one of two related lists is related to one of the other. -/
theorem exists_of_mem_right {α β : Type} {R : α → β → Prop} {xs : List α} {ys : List β}
    (each : List.Forall₂ R xs ys) {y : β} (member : y ∈ ys) : ∃ x ∈ xs, R x y := by
  induction each with
  | nil => simp at member
  | @cons x _ xs _ first _ ih =>
      rcases List.mem_cons.mp member with rfl | member
      · exact ⟨x, List.mem_cons_self, first⟩
      · obtain ⟨x', listed, related⟩ := ih member
        exact ⟨x', List.mem_cons_of_mem _ listed, related⟩

/-- Entries of a list can be related to those of another one if each of them can be related. -/
theorem exists_forall₂_iff {α β : Type} {R : α → β → Prop} {xs : List α} :
    (∃ ys, List.Forall₂ R xs ys) ↔ ∀ x ∈ xs, ∃ y, R x y := by
  constructor
  · rintro ⟨ys, each⟩ x member
    obtain ⟨y, _, related⟩ := exists_of_mem_right each.flip member
    exact ⟨y, related⟩
  · intro each
    induction xs with
    | nil => exact ⟨[], .nil⟩
    | cons x xs ih =>
        obtain ⟨⟨y, related⟩, rest⟩ := List.forall_mem_cons.mp each
        obtain ⟨ys, relatedToo⟩ := ih rest
        exact ⟨y :: ys, .cons related relatedToo⟩

section Traversal

variable {ε α β : Type} {f : α → Except ε β}

theorem mapM_cons_ok {x : α} {xs : List α} {y : β} {ys : List β} (first : f x = .ok y)
    (rest : xs.mapM f = .ok ys) : (x :: xs).mapM f = .ok (y :: ys) := by
  rw [List.mapM_cons, first, rest]
  rfl

/-- A traversal without failures had a result for every entry. -/
theorem forall₂_of_mapM {xs : List α} {ys : List β} (traversed : xs.mapM f = .ok ys) :
    List.Forall₂ (fun x y => f x = .ok y) xs ys := by
  induction xs generalizing ys with
  | nil =>
      obtain rfl : [] = ys := Except.ok.inj traversed
      exact .nil
  | cons x xs ih =>
      rw [List.mapM_cons, bind_eq_ok_iff] at traversed
      rcases traversed with ⟨y, first, traversed⟩
      rcases bind_eq_ok_iff.mp traversed with ⟨ys', rest, same⟩
      obtain rfl := Except.ok.inj same
      exact .cons first (ih rest)

/-- A traversal has a result exactly if its entries are the results of the entries. -/
theorem mapM_eq_ok_iff {xs : List α} {ys : List β} :
    xs.mapM f = .ok ys ↔ List.Forall₂ (fun x y => f x = .ok y) xs ys := by
  refine ⟨forall₂_of_mapM, fun each => ?_⟩
  induction each with
  | nil => rfl
  | cons first _ ih => exact mapM_cons_ok first ih

/-- A traversal has a result if every entry has one, and the results are those of the entries. -/
theorem mapM_ok {P : α → β → Prop} {xs : List α} (each : ∀ x ∈ xs, ∃ y, f x = .ok y ∧ P x y) :
    ∃ ys, xs.mapM f = .ok ys ∧ List.Forall₂ P xs ys := by
  obtain ⟨ys, related⟩ := exists_forall₂_iff.mpr each
  exact ⟨ys, mapM_eq_ok_iff.mpr (related.imp fun _ _ both => both.1),
    related.imp fun _ _ both => both.2⟩

/-- A traversal in which every entry has a known result. -/
theorem mapM_eq_ok_map {g : α → β} {xs : List α} (each : ∀ x ∈ xs, f x = .ok (g x)) :
    xs.mapM f = .ok (xs.map g) := by
  rw [mapM_eq_ok_iff, List.forall₂_map_right_iff, List.forall₂_same]
  exact each

theorem exists_of_mem_mapM {xs : List α} {ys : List β} (traversed : xs.mapM f = .ok ys) {y : β}
    (member : y ∈ ys) : ∃ x ∈ xs, f x = .ok y :=
  exists_of_mem_right (forall₂_of_mapM traversed) member

theorem exists_mem_of_mapM {xs : List α} {ys : List β} (traversed : xs.mapM f = .ok ys) {x : α}
    (member : x ∈ xs) : ∃ y ∈ ys, f x = .ok y :=
  exists_of_mem_right (forall₂_of_mapM traversed).flip member

end Traversal

/-! ## Formulas -/

/-- A formula says of a valuation what `P` does. -/
def Formula.Expresses (f : Formula) (P : Valuation → Prop) : Prop :=
  ∀ v, f.eval v = true ↔ P v

/-- A computation ends with a formula that says what `P` does. -/
def Denotes (computed : Except Fault Formula) (P : Valuation → Prop) : Prop :=
  ∃ f, computed = .ok f ∧ f.Expresses P

/-- A computation ends with formulas that say together what `P` does. -/
def DenotesAll (computed : Except Fault (List Formula)) (P : Valuation → Prop) : Prop :=
  ∃ fs, computed = .ok fs ∧ ∀ v, (∀ f ∈ fs, f.eval v = true) ↔ P v

/-- A computation ends with a formula that a valuation makes true. -/
def Holds (v : Valuation) (computed : Except Fault Formula) : Prop :=
  ∃ f, computed = .ok f ∧ f.eval v = true

theorem holds_ok {v : Valuation} {f : Formula} : Holds v (.ok f) ↔ f.eval v = true := by
  constructor
  · rintro ⟨g, same, isTrue⟩
    rwa [Except.ok.inj same]
  · intro isTrue
    exact ⟨f, rfl, isTrue⟩

instance (v : Valuation) (computed : Except Fault Formula) : Decidable (Holds v computed) :=
  match computed with
  | .ok _ => decidable_of_iff _ holds_ok.symm
  | .error _ => isFalse fun ⟨_, same, _⟩ => nomatch same

theorem Denotes.exists_eq_ok {computed : Except Fault Formula} {P : Valuation → Prop}
    (denotes : Denotes computed P) : ∃ f, computed = .ok f := by
  obtain ⟨f, found, _⟩ := denotes
  exact ⟨f, found⟩

theorem Denotes.holds_iff {computed : Except Fault Formula} {P : Valuation → Prop}
    (denotes : Denotes computed P) (v : Valuation) : Holds v computed ↔ P v := by
  rcases denotes with ⟨f, rfl, meaning⟩
  rw [holds_ok]
  exact meaning v

theorem Denotes.congr {computed : Except Fault Formula} {P Q : Valuation → Prop}
    (denotes : Denotes computed P) (same : ∀ v, P v ↔ Q v) : Denotes computed Q := by
  rcases denotes with ⟨f, found, meaning⟩
  exact ⟨f, found, fun v => (meaning v).trans (same v)⟩

theorem denotes_ok {f : Formula} {P : Valuation → Prop} (meaning : f.Expresses P) :
    Denotes (.ok f) P :=
  ⟨f, rfl, meaning⟩

/-- A formula that is there says that it holds. -/
theorem denotes_holds {computed : Except Fault Formula} {f : Formula} (found : computed = .ok f) :
    Denotes computed fun v => Holds v computed := by
  obtain rfl := found
  exact denotes_ok fun v => holds_ok.symm

namespace Formula

theorem expresses_true : (constant true).Expresses fun _ => True := by
  intro v
  simp

theorem expresses_conj {fs : List Formula} {P : Valuation → Prop}
    (all : ∀ v, (∀ f ∈ fs, f.eval v = true) ↔ P v) : (conj fs).Expresses P := by
  intro v
  rw [eval_conj, List.all_eq_true]
  exact all v

end Formula

section Lists

variable {α : Type} {Q : α → Valuation → Prop}

/-- What the formulas of a list say together if each says what it does of its own entry. -/
theorem forall_eval_iff {xs : List α} {fs : List Formula}
    (each : List.Forall₂ (fun x f => f.Expresses (Q x)) xs fs) (v : Valuation) :
    (∀ f ∈ fs, f.eval v = true) ↔ ∀ x ∈ xs, Q x v := by
  induction each with
  | nil => simp
  | cons meaning _ ih =>
      rw [List.forall_mem_cons, List.forall_mem_cons, ih, meaning v]

theorem exists_eval_iff {xs : List α} {fs : List Formula}
    (each : List.Forall₂ (fun x f => f.Expresses (Q x)) xs fs) (v : Valuation) :
    (∃ f ∈ fs, f.eval v = true) ↔ ∃ x ∈ xs, Q x v := by
  induction each with
  | nil => simp
  | cons meaning _ ih => simp only [List.mem_cons, exists_eq_or_imp, ih, meaning v]

/-- A traversal gives formulas that say together what each of them does. -/
theorem denotesAll_mapM {f : α → Except Fault Formula} {xs : List α}
    (each : ∀ x ∈ xs, Denotes (f x) (Q x)) : DenotesAll (xs.mapM f) fun v => ∀ x ∈ xs, Q x v := by
  obtain ⟨fs, traversed, meaning⟩ := mapM_ok each
  exact ⟨fs, traversed, forall_eval_iff meaning⟩

/-- A traversal gives lists of formulas that say together what each of them does. -/
theorem denotesAll_flatten {f : α → Except Fault (List Formula)} {xs : List α}
    (each : ∀ x ∈ xs, DenotesAll (f x) (Q x)) :
    ∃ fs, xs.mapM f = .ok fs ∧
      ∀ v, (∀ f ∈ fs.flatten, f.eval v = true) ↔ ∀ x ∈ xs, Q x v := by
  obtain ⟨fs, traversed, meanings⟩ := mapM_ok each
  refine ⟨fs, traversed, fun v => ?_⟩
  clear traversed each
  induction meanings with
  | nil => simp
  | cons meaning _ ih =>
      rw [List.flatten_cons, List.forall_mem_append, List.forall_mem_cons, meaning v, ih]

end Lists

end Trivalent
