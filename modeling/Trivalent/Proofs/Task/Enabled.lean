import Trivalent.Proofs.Encoding.Update
import Trivalent.Proofs.Semantics.Information
import Trivalent.Proofs.System.Equality
import Trivalent.Proofs.Task.History

/-!
# Enabled transitions

A transition whose process is at its source and whose guard holds leads to a next state, unless its
updates contradict each other.  All updates of a predicate have to allow the status that it takes,
so two updates of one predicate may leave it no status at all.  Nothing else stands in the way: one
update always allows some status, and what the transition leaves alone can stay as it is.
-/

namespace Trivalent

/-! ## Updates made together -/

namespace Transition

/-- For every predicate there is a status that all of its updates allow. -/
def Reconcilable (transition : Transition) (wildcard : Bool) (status : Nat → Status) : Prop :=
  ∀ id, ∃ after, ∀ assignment ∈ transition.assignments, assignment.predicate = id →
    assignment.value.allows wildcard status after = true

/-- Updates of different predicates do not contradict each other. -/
theorem AssignsOnce.reconcilable {transition : Transition} (once : transition.AssignsOnce)
    (wildcard : Bool) (status : Nat → Status) : transition.Reconcilable wildcard status := by
  obtain ⟨after, allowed⟩ := once.exists_status fun assignment _ =>
    Term.exists_allows wildcard status assignment.value
  intro id
  refine ⟨after id, ?_⟩
  rintro assignment member rfl
  exact allowed assignment member

end Transition

namespace System

variable {system : System} {wildcard : Bool} {p : Nat} {transition : Transition} {s : State}

/-- Where a transition is enabled it leads to a next state exactly if its updates can be made
together.  The other processes and predicates are left alone. -/
theorem exists_takes_iff (source : s.location p = transition.source)
    (guard : transition.guard.holds wildcard s.status = true) :
    (∃ t, system.Takes wildcard p transition s t) ↔
      transition.Reconcilable wildcard s.status := by
  constructor
  · rintro ⟨t, takes⟩ id
    refine ⟨t.status id, ?_⟩
    rintro assignment member rfl
    exact takes.updates assignment member
  · intro reconcilable
    choose after allowed using reconcilable
    let place := fun q => if q = p then transition.destination else s.location q
    use transition.outcome s place after
    constructor
    case source => exact source
    case destination => exact if_pos rfl
    case guard => exact guard
    case updates =>
      intro assignment member
      rw [transition.outcome_assigned member]
      exact allowed _ assignment member rfl
    case frame => exact fun _ _ => transition.outcome_unassigned
    case idle => exact fun q _ other => if_neg other

/-- A transition leads from locations that have names to others that do. -/
theorem Takes.location_lt {t : State} (takes : system.Takes wildcard p transition s t)
    (has : system.Has p transition)
    (named : ∀ q < system.processes.length, s.location q < Nat.pow 2 (system.widthOf q)) :
    ∀ q < system.processes.length, t.location q < Nat.pow 2 (system.widthOf q) := by
  intro q inside
  by_cases moved : q = p
  · subst moved
    rcases has with ⟨process, found, member⟩
    rw [takes.destination, widthOf_of_found found]
    exact Nat.lt_of_lt_of_le (lt_extent_of_named member (Nat.le_max_right _ _))
      process.extent_le_two_pow_width
  · rw [takes.idle q inside moved]
    exact named q inside

end System

/-! ## Next states -/

/-- The valuation with the bits of a state at the step that a template enters. -/
def Valuation.enters (v : Valuation) (system : System) (after : State) : Valuation := fun a =>
  if a.step? = some Encoding.next then after.bit system a else v a

/-- The bits at the step that a template enters can be chosen so that the template is true. -/
def Encoding.Template.HasNext (made : Encoding.Template) (v : Valuation) : Prop :=
  ∃ v' : Valuation, (∀ a : Atom, a.step? ≠ some Encoding.next → v' a = v a) ∧
    made.formula.eval v' = true

namespace Valuation

variable {v : Valuation} {system : System} {after : State}

/-- The state of a step is read from the atoms of the step. -/
theorem stateAt_congr {v' : Valuation} {step : Nat}
    (same : ∀ a : Atom, a.step? = some step → v' a = v a) :
    v'.stateAt system step = v.stateAt system step := by
  have places (p bit : Nat) : v' (.location p bit step false) = v (.location p bit step false) :=
    same _ rfl
  have bits (id : Nat) (bit : PredicateBit) :
      v' (.predicate id bit step false) = v (.predicate id bit step false) :=
    same _ rfl
  simp only [stateAt, readAt, places, bits]

/-- The state that is entered is read back if it is made of locations that have names. -/
theorem stateAt_enters_next
    (fits : ∀ p < system.processes.length, after.location p < Nat.pow 2 (system.widthOf p)) :
    ((v.enters system after).stateAt system Encoding.next).Agrees system.processes.length
      after := by
  constructor
  · intro p inside
    exact Encoding.number_locationBit (fits p inside)
  · funext id
    show Encoding.statusOfBits (decide (after.status id = .unknown))
      (decide (after.status id = .yes)) = after.status id
    cases after.status id <;> rfl

/-- Whether the updates of a transition can be made together is told by their formulas. -/
theorem reconcilable_iff {transition : Transition} :
    transition.Reconcilable (v .wildcard) (v.stateAt system Encoding.current).status ↔
      ∀ id, ∃ status, ∀ assignment ∈ transition.assignments, assignment.predicate = id →
        (Encoding.update assignment).eval (v.becomes id status) = true := by
  refine forall_congr' fun id => exists_congr fun status => forall₂_congr fun assignment _ => ?_
  refine imp_congr_right ?_
  rintro rfl
  rw [Encoding.update, Encoding.eval_updateChoice_becomes]
  rfl

end Valuation

namespace Encoding

variable {system : System} {p : Nat} {transition : Transition} {made : Template}

/-- Where a transition is enabled its template has a next state exactly if its updates can be made
together. -/
theorem Template.hasNext_iff (numbered : system.Numbered) (fits : system.Fits)
    (has : system.Has p transition) (found : template system p transition = .ok made)
    {v : Valuation} (source : (v.stateAt system current).location p = transition.source)
    (guard : transition.guard.holds (v .wildcard) (v.stateAt system current).status = true) :
    made.HasNext v ↔
      transition.Reconcilable (v .wildcard) (v.stateAt system current).status := by
  obtain ⟨made', isTemplate, _, taken⟩ := exists_template numbered fits has.inside transition
  obtain rfl := Except.ok.inj (found.symm.trans isTemplate)
  have exists_takes : (∃ t, system.Takes (v .wildcard) p transition (v.stateAt system current) t) ↔
      transition.Reconcilable (v .wildcard) (v.stateAt system current).status :=
    System.exists_takes_iff source guard
  rw [← exists_takes]
  have before {v' : Valuation} (same : ∀ a : Atom, a.step? ≠ some next → v' a = v a) :
      v'.stateAt system current = v.stateAt system current :=
    Valuation.stateAt_congr fun a isCurrent => same a (by rw [isCurrent]; decide)
  constructor
  · rintro ⟨v', same, isTrue⟩
    have takes : system.Takes (v' .wildcard) p transition (v'.stateAt system current)
        (v'.stateAt system next) := (taken v').mp isTrue
    rw [before same, same .wildcard nofun] at takes
    exact ⟨_, takes⟩
  · rintro ⟨t, takes⟩
    have same : ∀ a : Atom, a.step? ≠ some next → v.enters system t a = v a :=
      fun _ other => if_neg other
    have named := takes.location_lt has fun q _ => number_lt _ _
    refine ⟨v.enters system t, same, (taken _).mpr ?_⟩
    dsimp only
    rw [same .wildcard nofun, before same]
    exact takes.congr has.inside ⟨fun _ _ => rfl, rfl⟩ (Valuation.stateAt_enters_next named).symm

end Encoding

/-- A transition whose process is at its source and whose guard holds has a next state exactly if
for every predicate there is a status that all of its updates allow.  So it has one whenever it
assigns no predicate twice. -/
theorem System.hasNext_iff_reconcilable {text : String} {system : System}
    (loaded : ModelFile.load text = .ok system) (fits : system.Fits) {p : Nat}
    {transition : Transition} (has : system.Has p transition) :
    ∃ made, Encoding.template system p transition = .ok made ∧ ∀ v : Valuation,
      Encoding.locationOf system v p Encoding.current = .ok transition.source →
        (Encoding.guard transition.guard Encoding.current).eval v = true →
          (made.HasNext v ↔
              ∀ id, ∃ status, ∀ assignment ∈ transition.assignments, assignment.predicate = id →
                (Encoding.update assignment).eval (v.becomes id status) = true) ∧
            (transition.AssignsOnce → made.HasNext v) := by
  have numbered := ModelFile.numbered_of_load loaded
  obtain ⟨made, found, _⟩ := Encoding.exists_template numbered fits has.inside transition
  refine ⟨made, found, fun v source guard => ?_⟩
  rw [Encoding.locationOf_of_fits fits has.inside, Except.ok.injEq] at source
  rw [Encoding.eval_guard] at guard
  have hasNext := Encoding.Template.hasNext_iff numbered fits has found source guard
  exact ⟨hasNext.trans Valuation.reconcilable_iff, fun once => hasNext.mpr (once.reconcilable _ _)⟩

/-- A process that may move while x is unknown, sets x and forgets y.  Optimistically it can. -/
theorem System.hasNext_iff_reconcilable_of_unknown_guard :
    let text := "\x7b\"predicates\": \x7b\"x\": 0, \"y\": 1\x7d, \"processes\": [[\x7b" ++
      "\"source\": 0, \"destination\": 1, \"guard\": \"x\", \"assignments\": [\x7b" ++
        "\"predicate\": 0, \"RHS\": \"true\"\x7d, \x7b" ++
          "\"predicate\": 1, \"RHS\": \"choice(false, false)\"\x7d]\x7d]]\x7d"
    let forgetting : Transition := ⟨0, 1, .plain (.predicate 0),
      [⟨0, .plain (.literal true)⟩, ⟨1, .choice (.literal false) (.literal false)⟩]⟩
    let system : System := ⟨.ofList [("x", 0), ("y", 1)], .empty, [⟨0, [forgetting]⟩]⟩
    let v : Valuation := fun a => a ∈ [Atom.wildcard, .predicate 0 .unknown Encoding.current false]
    ModelFile.load text = .ok system ∧ system.Fits ∧ system.Has 0 forgetting ∧
      ∃ made, Encoding.template system 0 forgetting = .ok made ∧
        Encoding.locationOf system v 0 Encoding.current = .ok forgetting.source ∧
          (Encoding.guard forgetting.guard Encoding.current).eval v = true ∧
            forgetting.AssignsOnce ∧ made.HasNext v := by
  intro text forgetting system v
  have loaded : ModelFile.load text = .ok system := by decide +kernel
  have fits : system.Fits := by
    intro process member
    obtain rfl := List.mem_singleton.mp member
    decide
  have has : system.Has 0 forgetting := ⟨_, rfl, List.mem_singleton_self _⟩
  have source : Encoding.locationOf system v 0 Encoding.current = .ok forgetting.source := by
    decide
  have guard : (Encoding.guard forgetting.guard Encoding.current).eval v = true := by
    decide +kernel
  have once : forgetting.AssignsOnce := by
    unfold Transition.AssignsOnce
    decide
  obtain ⟨made, found, next⟩ := System.hasNext_iff_reconcilable loaded fits has
  exact ⟨loaded, fits, has, made, found, source, guard, once, (next v source guard).2 once⟩

/-- A transition that makes x both true and false: its process is at the source and its guard holds,
but no valuation makes its template true. -/
theorem System.exists_blocked :
    let text := "\x7b\"predicates\": \x7b\"x\": 0\x7d, \"processes\": [[\x7b\"source\": 0, " ++
      "\"destination\": 1, \"assignments\": [\x7b\"predicate\": 0, \"RHS\": \"true\"\x7d, " ++
        "\x7b\"predicate\": 0, \"RHS\": \"false\"\x7d]\x7d]]\x7d"
    let contradicting : Transition :=
      ⟨0, 1, .always, [⟨0, .plain (.literal true)⟩, ⟨0, .plain (.literal false)⟩]⟩
    let system : System := ⟨.ofList [("x", 0)], .empty, [⟨0, [contradicting]⟩]⟩
    let v : Valuation := fun _ => false
    ModelFile.load text = .ok system ∧ system.Fits ∧ system.Has 0 contradicting ∧
      ∃ made, Encoding.template system 0 contradicting = .ok made ∧
        Encoding.locationOf system v 0 Encoding.current = .ok contradicting.source ∧
          (Encoding.guard contradicting.guard Encoding.current).eval v = true ∧
            ∀ v' : Valuation, made.formula.eval v' = false := by
  intro text contradicting system v
  have loaded : ModelFile.load text = .ok system := by decide +kernel
  have fits : system.Fits := by
    intro process member
    obtain rfl := List.mem_singleton.mp member
    decide
  have has : system.Has 0 contradicting := ⟨_, rfl, List.mem_singleton_self _⟩
  have numbered := ModelFile.numbered_of_load loaded
  obtain ⟨made, found, _, taken⟩ :=
    Encoding.exists_template numbered fits has.inside contradicting
  refine ⟨loaded, fits, has, made, found, by decide, by decide +kernel, fun v' => ?_⟩
  rw [← Bool.not_eq_true]
  intro isTrue
  have updates := ((taken v').mp isTrue).updates
  have isYes := of_decide_eq_true (updates _ (List.mem_cons_self))
  have isNo := of_decide_eq_true (updates _ (List.mem_cons_of_mem _ (List.mem_singleton_self _)))
  exact nomatch isYes.symm.trans isNo

end Trivalent
