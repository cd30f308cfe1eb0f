import Trivalent.Proofs.Encoding.Template

/-!
# Transitions at a step

Templates are made of atoms of the two symbolic steps and of the wildcard.  So a template can be
moved to every step that has a next one, where it is true exactly where the transition is taken
between the states of that step and the next.
-/

namespace Trivalent

/-- The atom belongs to a step up to `last` or to none. -/
def Atom.Within (last : Nat) (a : Atom) : Prop :=
  ∀ step ∈ a.step?, step ≤ last

theorem Formula.shiftWord_of_uses {f : Formula} {last steps : Nat}
    (uses : f.Uses (Atom.Within last)) (room : last + steps < Word.limit) :
    f.shiftWord steps = .ok (f.shift steps) := by
  refine shiftWord_eq_ok_iff.mpr ⟨?_, rfl⟩
  intro a occurs step isStep
  have := uses a occurs step isStep
  omega

namespace Encoding

open Formula

variable {last : Nat}

/-! ## Atoms of encodings -/

theorem uses_locationFormula (width process location step : Nat) (shadow : Bool)
    (within : step ≤ last) :
    (locationFormula width process location step shadow).Uses (Atom.Within last) := by
  unfold locationFormula
  split
  · exact uses_constant false
  · refine uses_conj (List.forall_mem_map.mpr fun bit _ => ?_)
    have atom : (Formula.atom (.location process bit step shadow)).Uses (Atom.Within last) :=
      uses_atom (by simpa [Atom.Within, Atom.step?] using within)
    simp only
    split
    · exact atom
    · exact uses_neg atom

theorem uses_location {system : System} {process place step : Nat} {shadow : Bool} {f : Formula}
    (found : location system process place step shadow = .ok f) (within : step ≤ last) :
    f.Uses (Atom.Within last) := by
  rcases bind_eq_ok_iff.mp found with ⟨width, _, found⟩
  rcases bind_eq_ok_iff.mp found with ⟨_, _, found⟩
  obtain rfl := Except.ok.inj found
  exact uses_locationFormula width process place step shadow within

theorem uses_predicateAtom (predicate : Nat) (bit : PredicateBit) (step : Nat) (shadow : Bool)
    (within : step ≤ last) :
    (Formula.atom (.predicate predicate bit step shadow)).Uses (Atom.Within last) :=
  uses_atom (by simpa [Atom.Within, Atom.step?] using within)

theorem uses_wildcard : (Formula.atom .wildcard).Uses (Atom.Within last) :=
  uses_atom (by simp [Atom.Within, Atom.step?])

theorem uses_statusFormula (predicate : Nat) (status : Status) (step : Nat) (shadow : Bool)
    (within : step ≤ last) :
    (statusFormula predicate status step shadow).Uses (Atom.Within last) := by
  have unknown := uses_predicateAtom predicate .unknown step shadow within
  have truth := uses_predicateAtom predicate .truth step shadow within
  cases status with
  | yes => exact uses_conj (by simpa using ⟨uses_neg unknown, truth⟩)
  | no => exact uses_conj (by simpa using ⟨uses_neg unknown, uses_neg truth⟩)
  | unknown => exact unknown

theorem uses_occurrence (predicate : Nat) (positive : Bool) (step : Nat) (within : step ≤ last) :
    (occurrence predicate positive step).Uses (Atom.Within last) := by
  have unknown := uses_predicateAtom predicate .unknown step false within
  have truth := uses_predicateAtom predicate .truth step false within
  have signed : (if positive then Formula.atom (.predicate predicate .truth step false)
      else (Formula.atom (.predicate predicate .truth step false)).neg).Uses
        (Atom.Within last) := by
    split
    · exact truth
    · exact uses_neg truth
  refine uses_disj (List.forall_mem_cons.mpr ⟨uses_conj ?_, List.forall_mem_singleton.mpr
    (uses_conj ?_)⟩)
  · simpa using ⟨unknown, uses_wildcard⟩
  · simpa using ⟨uses_neg unknown, signed⟩

theorem uses_normalFormula (step : Nat) (within : step ≤ last) (e : Expr) :
    (normalFormula step e).Uses (Atom.Within last) := by
  induction e using normalFormula.induct with
  | case1 value =>
      rw [normalFormula]
      exact uses_constant value
  | case2 id =>
      rw [normalFormula]
      exact uses_occurrence id true step within
  | case3 body id isPredicate =>
      rw [normalFormula, isPredicate]
      exact uses_occurrence id false step within
  | case4 body compound ih =>
      rw [normalFormula, compound]
      exact ih
  | case5 operands ih =>
      rw [normalFormula]
      exact uses_conj (List.forall_mem_map.mpr ih)
  | case6 operands ih =>
      rw [normalFormula]
      exact uses_disj (List.forall_mem_map.mpr ih)

theorem uses_exprFormula (e : Expr) (step : Nat) (negated : Bool) (within : step ≤ last) :
    (exprFormula e step negated).Uses (Atom.Within last) :=
  uses_normalFormula step within _

theorem uses_guard (term : Term) (step : Nat) (within : step ≤ last) :
    (guard term step).Uses (Atom.Within last) := by
  cases term with
  | plain body => exact uses_exprFormula body step false within
  | choice left right =>
      have holds := uses_exprFormula left step false within
      have fails := uses_exprFormula right step true within
      have mayFail := uses_exprFormula right step false within
      simp only [guard]
      split
      · exact uses_constant true
      split
      · exact uses_constant false
      split
      · exact uses_wildcard
      refine uses_conj (List.forall_mem_cons.mpr ⟨uses_disj ?_, List.forall_mem_singleton.mpr
        (uses_disj ?_)⟩)
      · simpa using ⟨holds, fails⟩
      · simpa using ⟨holds, mayFail, uses_wildcard⟩

theorem uses_updateChoice (left right : Expr) (predicate : Nat) :
    (updateChoice left right predicate).Uses (Atom.Within 1) := by
  have becomes : ∀ status, (statusFormula predicate status next false).Uses (Atom.Within 1) :=
    fun status => uses_statusFormula predicate status next false (by decide)
  have reads : ∀ e negated, (exprFormula e current negated).Uses (Atom.Within 1) :=
    fun e negated => uses_exprFormula e current negated (by decide)
  unfold updateChoice
  simp only
  split
  · exact becomes .yes
  split
  · exact becomes .no
  split
  · exact becomes .unknown
  apply uses_disj
  simp only [List.forall_mem_cons, List.not_mem_nil, false_imp_iff, implies_true, and_true]
  refine ⟨uses_conj ?_, uses_conj ?_, uses_conj ?_⟩
  · simpa using ⟨reads left false, becomes .yes⟩
  · simpa using ⟨reads right false, becomes .no⟩
  · simpa using ⟨uses_substitute _ (reads _ true), becomes .unknown⟩

theorem uses_keepsStatus (id : Nat) : (keepsStatus id).Uses (Atom.Within 1) := by
  refine uses_disj (List.forall_mem_map.mpr fun status _ => uses_conj ?_)
  have before := uses_statusFormula id status current false (by decide : current ≤ 1)
  have after := uses_statusFormula id status next false (by decide : next ≤ 1)
  simpa using ⟨before, after⟩

theorem uses_operation (system : System) (transition : Transition) :
    (operation system transition).Uses (Atom.Within 1) := by
  apply uses_conj
  simp only [List.forall_mem_append, List.forall_mem_map, List.forall_mem_singleton]
  refine ⟨⟨uses_guard _ _ (by decide), fun assignment _ => uses_updateChoice _ _ _⟩, ?_⟩
  exact uses_conj (List.forall_mem_map.mpr fun id _ => uses_keepsStatus id)

theorem uses_keepsLocation (width process : Nat) :
    ∀ f ∈ keepsLocation width process, f.Uses (Atom.Within 1) := by
  refine List.forall_mem_map.mpr fun bit _ => uses_iff (uses_atom ?_) (uses_atom ?_)
  · simp [Atom.Within, Atom.step?, current]
  · simp [Atom.Within, Atom.step?, next]

theorem uses_idle {system : System} {active : Nat} {f : Formula}
    (found : idle system active = .ok f) : f.Uses (Atom.Within 1) := by
  rcases bind_eq_ok_iff.mp found with ⟨others, traversed, made⟩
  obtain rfl := Except.ok.inj made
  apply uses_conj
  intro g member
  rcases List.mem_flatten.mp member with ⟨group, listed, member⟩
  obtain ⟨process, _, kept⟩ := exists_of_mem_mapM traversed listed
  rcases bind_eq_ok_iff.mp kept with ⟨width, _, made⟩
  obtain rfl := Except.ok.inj made
  exact uses_keepsLocation width process.id g member

theorem uses_template {system : System} {process : Nat} {transition : Transition}
    {made : Template} (found : template system process transition = .ok made) :
    made.formula.Uses (Atom.Within 1) := by
  rcases bind_eq_ok_iff.mp found with ⟨old, isOld, found⟩
  rcases bind_eq_ok_iff.mp found with ⟨new, isNew, found⟩
  rcases bind_eq_ok_iff.mp found with ⟨idle, isIdle, found⟩
  obtain rfl := Except.ok.inj found
  apply uses_conj
  simp only [List.forall_mem_cons, List.not_mem_nil, false_imp_iff, implies_true, and_true]
  refine ⟨uses_location isOld (by decide), uses_operation system transition,
    uses_location isNew (by decide), uses_idle isIdle⟩

/-! ## Instances -/

variable {system : System}

/-- Moved to a step, the template of a transition tells that the transition is taken there. -/
theorem exists_instance (numbered : system.Numbered) (fits : system.Fits) {p : Nat}
    (inside : p < system.processes.length) (transition : Transition) :
    ∃ made, template system p transition = .ok made ∧ made.parent = p ∧
      ∀ step, step + 1 < Word.limit → Denotes (made.instantiate step) fun v =>
        system.Takes (v .wildcard) p transition (v.stateAt system step)
          (v.stateAt system (step + 1)) := by
  obtain ⟨made, found, parent, meaning⟩ := exists_template numbered fits inside transition
  refine ⟨made, found, parent, fun step room => ⟨made.formula.shift step, ?_, fun v => ?_⟩⟩
  · exact shiftWord_of_uses (uses_template found) (by omega)
  · rw [eval_shift, meaning]
    have before : current + step = step := Nat.zero_add step
    have after : next + step = step + 1 := Nat.add_comm next step
    show system.Takes (v .wildcard) p transition ((v.later step).readAt system false current)
      ((v.later step).readAt system false next) ↔ _
    rw [Valuation.readAt_later, Valuation.readAt_later, before, after]

end Encoding

end Trivalent
