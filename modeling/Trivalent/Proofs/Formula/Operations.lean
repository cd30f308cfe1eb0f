import Trivalent.Proofs.Formula.Occurrence

/-!
# What the operations on formulas mean

Whatever a formula looks like, the folding constructors have the values of the connectives, fixing an
atom amounts to fixing its value, and moving a formula in time amounts to reading every atom later.
Its atoms are then those of the formula, in the same order and as many steps later.  `Atom.later` says
apart from the operation which atom that is.
-/

namespace Trivalent

/-! ## Atoms in order -/

section Ascending

variable {α β : Type} [DecidableEq α] [DecidableEq β] {f : α → β}

theorem dropRepeats_map (injective : ∀ a b, f a = f b → a = b) (entries : List α) :
    dropRepeats (entries.map f) = (dropRepeats entries).map f := by
  fun_induction dropRepeats entries with
  | case1 => rfl
  | case2 => rfl
  | case3 a rest ih => simpa [dropRepeats] using ih
  | case4 a b rest other ih =>
      have kept : f a ≠ f b := fun same => other (injective a b same)
      simpa [dropRepeats, other, kept] using ih

/-- A function that keeps the order may be applied before or after listing in order. -/
theorem ascending_map [Ord α] [Ord β] (injective : ∀ a b, f a = f b → a = b)
    (ordered : ∀ a b, compare (f a) (f b) = compare a b) (entries : List α) :
    ascending (entries.map f) = (ascending entries).map f := by
  have sorted : (entries.map f).mergeSort (fun a b => (compare a b).isLE) =
      (entries.mergeSort fun a b => (compare a b).isLE).map f := by
    symm
    apply List.map_mergeSort
    intro a _ b _
    rw [ordered]
  rw [ascending, sorted, dropRepeats_map injective, ascending]

end Ascending

namespace Atom

/-- The atom of another step, if it belongs to a step at all. -/
def atStep (step : Nat) : Atom → Atom
  | .location process bit _ shadow => .location process bit step shadow
  | .predicate id bit _ shadow => .predicate id bit step shadow
  | .record _ => .record step
  | .recorded _ => .recorded step
  | .progress _ => .progress step
  | .fair process _ => .fair process step
  | .wildcard => .wildcard

/-- What an atom is some steps later.  The wildcard belongs to no step and stays what it is. -/
def later (steps : Nat) (a : Atom) : Atom :=
  match a.step? with
  | some step => a.atStep (step + steps)
  | none => a

theorem shift_eq_later (steps : Nat) (a : Atom) : a.shift steps = a.later steps := by
  cases a <;> rfl

theorem shift_inj (steps : Nat) (a b : Atom) (same : a.shift steps = b.shift steps) : a = b := by
  cases a <;> cases b <;> simp_all [shift]

/-- Moving atoms together keeps their order. -/
theorem compare_shift (steps : Nat) (a b : Atom) :
    compare (a.shift steps) (b.shift steps) = compare a b := by
  have moved (m n : Nat) : compareOfLessAndEq (m + steps) (n + steps) = compareOfLessAndEq m n := by
    simp [compareOfLessAndEq]
  cases a <;> cases b <;> simp [compare, instOrdAtom.ord, shift, moved]

end Atom

namespace Formula

/-! ## Moving in time -/

mutual

theorem gather_shift (steps : Nat) (later : List Atom) (f : Formula) :
    gather (later.map (Atom.shift steps)) (f.shift steps) =
      (gather later f).map (Atom.shift steps) := by
  cases f with
  | atom a => rfl
  | not body => exact gather_shift steps later body
  | and operands => exact gatherAll_shiftAll steps later operands
  | or operands => exact gatherAll_shiftAll steps later operands

theorem gatherAll_shiftAll (steps : Nat) (later : List Atom) (operands : List Formula) :
    gatherAll (later.map (Atom.shift steps)) (shiftAll steps operands) =
      (gatherAll later operands).map (Atom.shift steps) := by
  cases operands with
  | nil => rfl
  | cons f rest =>
      rw [shiftAll, gatherAll, gatherAll, gatherAll_shiftAll steps later rest,
        gather_shift steps (gatherAll later rest) f]

end

/-- The atoms of a formula that is moved are its atoms, moved. -/
theorem atoms_shift (steps : Nat) (f : Formula) :
    (f.shift steps).atoms = f.atoms.map (Atom.shift steps) := by
  have occurrences_shift : (f.shift steps).occurrences = f.occurrences.map (Atom.shift steps) :=
    gather_shift steps [] f
  rw [atoms, occurrences_shift,
    ascending_map (Atom.shift_inj steps) (Atom.compare_shift steps), atoms]

/-- Moving `f` some steps into the future gives `g`, which reads every atom of `f` that many steps
later and has no other atoms. -/
structure MovesTo (f : Formula) (steps : Nat) (g : Formula) : Prop where
  computed : f.shiftWord steps = .ok g
  eval_eq : ∀ v : Valuation, g.eval v = f.eval fun a => v (a.later steps)
  atoms_eq : g.atoms = f.atoms.map (Atom.later steps)

theorem movesTo_shift {steps : Nat} {f : Formula} (fits : ∀ a ∈ f.atoms, a.Shiftable steps) :
    f.MovesTo steps (f.shift steps) where
  computed := shiftWord_eq_ok_iff.mpr ⟨fun a occurs => fits a (mem_atoms.mpr occurs), rfl⟩
  eval_eq v := by simp only [eval_shift, Atom.shift_eq_later]
  atoms_eq := by
    rw [atoms_shift]
    exact List.map_congr_left fun a _ => a.shift_eq_later steps

/-! ## All operations -/

/-- The operations keep the meaning of all formulas.  The folding constructors have the values of the
connectives.  A formula in which an atom is fixed has the value that it has if the atom is, and no
longer has the atom.  A formula whose atoms all have a step that many steps later can be moved, and
else moving it is a fault.  Only the atoms of a formula matter for its value. -/
theorem operations_keep_meaning :
    (∀ (v : Valuation) (fs : List Formula),
      (conj fs).eval v = fs.all (eval v) ∧ (disj fs).eval v = fs.any (eval v)) ∧
    (∀ (v : Valuation) (f g : Formula), f.neg.eval v = (!f.eval v) ∧
      (f.iff g).eval v = (f.eval v == g.eval v) ∧
        (f.implies g).eval v = (!f.eval v || g.eval v)) ∧
    (∀ (f : Formula) (fixed : Atom) (value : Bool),
      (∀ v : Valuation, (f.substitute fixed value).eval v = f.eval (v.fix fixed value)) ∧
        ∀ a ∈ (f.substitute fixed value).atoms, a ≠ fixed ∧ a ∈ f.atoms) ∧
    (∀ (f : Formula) (steps : Nat),
      ((∀ a ∈ f.atoms, a.Shiftable steps) → ∃ g, f.MovesTo steps g) ∧
        ((∃ a ∈ f.atoms, ¬a.Shiftable steps) → f.shiftWord steps = .error .addOverflow)) ∧
    ∀ (f : Formula) (v v' : Valuation), (∀ a ∈ f.atoms, v a = v' a) → f.eval v = f.eval v' := by
  refine ⟨?connectives, ?derived, ?fixing, ?moving, ?depending⟩
  case connectives => exact fun v fs => ⟨eval_conj v fs, eval_disj v fs⟩
  case derived => exact fun v f g => ⟨eval_neg v f, eval_iff v f g, eval_implies v f g⟩
  case fixing =>
    intro f fixed value
    exact ⟨fun v => eval_substitute v fixed value f, fun _ => mem_atoms_of_mem_substitute⟩
  case moving =>
    intro f steps
    constructor
    · exact fun fits => ⟨f.shift steps, movesTo_shift fits⟩
    · rintro ⟨a, member, stuck⟩
      exact shiftWord_eq_error_iff.mpr ⟨⟨a, mem_atoms.mp member, stuck⟩, rfl⟩
  case depending =>
    intro f v v' agree
    exact eval_congr f fun a occurs => agree a (mem_atoms.mpr occurs)

/-- A conjunction of a disjunction with one operand, a double negation and a conjunction without
operands.  It can be moved by two steps, but not by as many as the last word says. -/
theorem operations_keep_meaning_of_unfolded :
    let f : Formula :=
      .and [.or [.atom (.record 1)], .not (.not (.atom .wildcard)), .and []]
    let g : Formula :=
      .and [.or [.atom (.record 3)], .not (.not (.atom .wildcard)), .and []]
    let v : Valuation := fun a => a ≠ .record 3
    (∀ a ∈ f.atoms, a.Shiftable 2) ∧ f.MovesTo 2 g ∧
      (∃ a ∈ f.atoms, ¬a.Shiftable 18446744073709551615) ∧
        f.shiftWord 18446744073709551615 = .error .addOverflow ∧
          (.record 1 ∈ (f.substitute .wildcard true).atoms ∧ Atom.record 1 ≠ .wildcard ∧
            .record 1 ∈ f.atoms) ∧
            (∀ a ∈ f.atoms, v a = true) ∧ f.eval v = f.eval fun _ => true := by
  intro f g v
  obtain ⟨_, _, fixing, moving, depending⟩ := operations_keep_meaning
  have occur : .record 1 ∈ f.atoms := mem_atoms.mpr (by decide)
  have left : .record 1 ∈ (f.substitute .wildcard true).atoms := mem_atoms.mpr (by decide)
  have fits : ∀ a ∈ f.atoms, a.Shiftable 2 := by
    simp only [mem_atoms]
    decide
  have stuck : ∃ a ∈ f.atoms, ¬a.Shiftable 18446744073709551615 := ⟨_, occur, by decide⟩
  have agree : ∀ a ∈ f.atoms, v a = true := by
    simp only [mem_atoms]
    decide
  have moves : f.MovesTo 2 g := by
    obtain ⟨moved, moves⟩ := (moving f 2).1 fits
    have computed : f.shiftWord 2 = .ok g := rfl
    obtain rfl := Except.ok.inj (computed.symm.trans moves.computed)
    exact moves
  exact ⟨fits, moves, stuck, (moving f _).2 stuck, ⟨left, (fixing f .wildcard true).2 _ left⟩, agree,
    depending f v (fun _ => true) agree⟩

/-- An atom of step 1 is not moved as far as the last word says: there is no such step. -/
theorem not_movesTo_behind_last_step :
    (atom (.record 1)).shiftWord 18446744073709551615 = .error .addOverflow ∧
      ¬∃ g, (atom (.record 1)).MovesTo 18446744073709551615 g := by
  have fault : (atom (.record 1)).shiftWord 18446744073709551615 = .error .addOverflow := rfl
  refine ⟨fault, ?_⟩
  rintro ⟨g, moves⟩
  have computed := moves.computed
  rw [fault] at computed
  contradiction

end Formula

end Trivalent
