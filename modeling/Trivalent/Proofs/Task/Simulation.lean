import Trivalent.Proofs.Semantics.Repetition
import Trivalent.Proofs.System.Equality
import Trivalent.Proofs.Task.Violations

/-!
# Steps and information

The formula of a step allows a transition between two states if it is true of them with the disjunct
of the transition.  What it allows are the transitions that are taken, so optimistic steps are matched
from states that know less and pessimistic ones from states that know more.
-/

namespace Trivalent

/-- The history of a single step, in which nothing is recorded. -/
def History.ofStep (step : Nat) (s t : State) (wildcard : Bool) : History where
  state i := if i ≤ step then s else t
  shadow _ := s
  record _ := false
  recorded _ := false
  progress _ := false
  fair _ _ := false
  wildcard := wildcard

namespace System

/-- A system has names for the locations of a state. -/
def Names (system : System) (s : State) : Prop :=
  ∀ p < system.processes.length, s.location p < Nat.pow 2 (system.widthOf p)

variable {system : System} {s t : State}

theorem SameState.of_agrees (agree : s.Agrees system.processes.length t) :
    system.SameState s t where
  location := agree.location
  status id _ := congrFun agree.status id

theorem IsSimulation.names_iff {wildcard : Bool} {R : State → State → Prop}
    (simulation : system.IsSimulation wildcard R) (related : R s t) :
    system.Names s ↔ system.Names t :=
  forall₂_congr fun p inside => by rw [simulation.location s t related p inside]

end System

namespace Task

variable {task : Task} {wildcard : Bool} {step p : Nat} {transition : Transition}
  {s t s' t' : State}

/-- The formula of a step allows a transition of process `p` between two states. -/
def Allows (task : Task) (wildcard : Bool) (step p : Nat) (transition : Transition)
    (s t : State) : Prop :=
  task.system.Has p transition ∧ ∃ v : Valuation, v .wildcard = wildcard ∧
    Holds v (task.step step) ∧
      (∃ made, Encoding.template task.system p transition = .ok made ∧
        Holds v (task.move step made)) ∧
        task.system.SameState (v.stateAt task.system step) s ∧
          task.system.SameState (v.stateAt task.system (step + 1)) t

/-- The disjunct of a transition tells that it is taken and how the movements go on. -/
theorem exists_move (built : task.WellBuilt) (room : step + 1 < Word.limit)
    (has : task.system.Has p transition) :
    ∃ made, Encoding.template task.system p transition = .ok made ∧
      Denotes (task.move step made) fun v =>
        task.system.Takes (v .wildcard) p transition (v.stateAt task.system step)
            (v.stateAt task.system (step + 1)) ∧
          (task.configuration.isFair = true → task.Follows p step v) := by
  obtain ⟨made, isTemplate, parent, takes⟩ :=
    Encoding.exists_instance built.numbered built.fits has.inside transition
  have member : made ∈ task.templates := by
    rcases has with ⟨process, found, listed⟩
    exact (Encoding.mem_templates built.numbered built.templates).mpr
      ⟨p, process, found, transition, listed, isTemplate⟩
  obtain ⟨f, found, meaning⟩ := denotes_move built room made member
  rw [parent] at meaning
  refine ⟨made, isTemplate, f, found, fun v => (meaning v).trans ?_⟩
  exact and_congr_left' ((takes step room).holds_iff v)

/-- The history of a step that is taken satisfies the formula of the step. -/
theorem step_ofStep (built : task.WellBuilt) (room : step + 1 < Word.limit)
    (moves : task.system.Moves wildcard p
      (((History.ofStep step s t wildcard).valuation task.system).stateAt task.system step)
      (((History.ofStep step s t wildcard).valuation task.system).stateAt task.system (step + 1))) :
    Holds ((History.ofStep step s t wildcard).valuation task.system) (task.step step) := by
  apply ((denotes_step built room).holds_iff _).mpr
  constructor
  · exact ⟨p, moves, fun _ q _ => (ite_self _).symm⟩
  · intro _
    constructor
    case recorded => rfl
    case shadow =>
      intro a member
      have here := (History.valuation_tracked (h := History.ofStep step s t wildcard) built
        step a member).2
      have later := (History.valuation_tracked (h := History.ofStep step s t wildcard) built
        (step + 1) a member).2
      rw [Atom.shift_shadowed, Atom.shift_shift, later]
      exact here.symm
    case progress => simp [Valuation.recordedAfter, History.valuation, History.ofStep]

/-- The formula of a step allows the transitions that are taken between states with names. -/
theorem allows_iff (built : task.WellBuilt) (declared : task.system.Declared)
    (room : step + 1 < Word.limit) :
    task.Allows wildcard step p transition s t ↔
      task.system.Has p transition ∧ task.system.Takes wildcard p transition s t ∧
        task.system.Names s ∧ task.system.Names t := by
  constructor
  · rintro ⟨has, v, rfl, _, ⟨made, isTemplate, isMove⟩, before, after⟩
    obtain ⟨made', isTemplateToo, meaning⟩ := exists_move built room has
    obtain rfl := Except.ok.inj (isTemplate.symm.trans isTemplateToo)
    have takes := ((meaning.holds_iff v).mp isMove).1
    refine ⟨has, takes.of_same (has.refersTo declared) has.inside before after, ?_, ?_⟩
    · intro q inside
      rw [← before.location q inside]
      exact Encoding.number_lt _ _
    · intro q inside
      rw [← after.location q inside]
      exact Encoding.number_lt _ _
  · rintro ⟨has, takes, names, namesToo⟩
    let h := History.ofStep step s t wildcard
    have here : h.side false step = s := if_pos (Nat.le_refl step)
    have next : h.side false (step + 1) = t := if_neg (Nat.not_succ_le_self step)
    have before : ((h.valuation task.system).stateAt task.system step).Agrees
        task.system.processes.length s := by
      conv_rhs => rw [← here]
      exact History.readAt_valuation (by rw [here]; exact names)
    have after : ((h.valuation task.system).stateAt task.system (step + 1)).Agrees
        task.system.processes.length t := by
      conv_rhs => rw [← next]
      exact History.readAt_valuation (by rw [next]; exact namesToo)
    have taken := takes.congr has.inside before.symm after.symm
    obtain ⟨made, isTemplate, meaning⟩ := exists_move built room has
    refine ⟨has, h.valuation task.system, rfl, ?_, ⟨made, isTemplate, ?_⟩, .of_agrees before,
      .of_agrees after⟩
    · rcases has with ⟨process, found, member⟩
      exact step_ofStep built room ⟨process, found, transition, member, taken⟩
    · exact (meaning.holds_iff _).mpr ⟨taken, fun _ q _ => (ite_self _).symm⟩

/-- The formulas of the first `n` steps allow a path, step by step. -/
def AllowsPath (task : Task) (wildcard : Bool) (n : Nat) (taken : Nat → Nat × Transition)
    (s : Nat → State) : Prop :=
  ∀ t < n, task.Allows wildcard t (taken t).1 (taken t).2 (s t) (s (t + 1))

section Paths

variable {n : Nat} {taken : Nat → Nat × Transition} {u u' : Nat → State}
  (built : task.WellBuilt) (declared : task.system.Declared)

include built declared

theorem AllowsPath.isPath (room : n < Word.limit) (allowed : task.AllowsPath wildcard n taken u) :
    task.system.IsPath wildcard n taken u := by
  intro t before
  obtain ⟨has, takes, _⟩ :=
    (allows_iff built declared (Nat.lt_of_le_of_lt before room)).mp (allowed t before)
  exact ⟨has, takes⟩

/-- A path is allowed if another one through the same locations is. -/
theorem AllowsPath.of_isPath (room : n < Word.limit) (allowed : task.AllowsPath wildcard n taken u)
    (path : task.system.IsPath wildcard n taken u')
    (names : ∀ t ≤ n, task.system.Names (u t) → task.system.Names (u' t)) :
    task.AllowsPath wildcard n taken u' := by
  intro t before
  have here := Nat.lt_of_le_of_lt before room
  obtain ⟨_, _, named, namedNext⟩ := (allows_iff built declared here).mp (allowed t before)
  exact (allows_iff built declared here).mpr ⟨(path t before).1, (path t before).2,
    names t (Nat.le_of_lt before) named, names (t + 1) before namedNext⟩

end Paths

/-- What the formulas of a task allow from a state they allow from the related ones: the same
transition to a related state, a path with the same transitions through related states, and a
violation that begins with such a path. -/
structure Simulates (task : Task) (wildcard : Bool) (R : State → State → Prop) : Prop where
  step : ∀ step p transition s t u, step + 1 < Word.limit → R s u →
    task.Allows wildcard step p transition s t →
      ∃ v, task.Allows wildcard step p transition u v ∧ R t v
  path : ∀ n taken s first, n < Word.limit → R (s 0) first →
    task.AllowsPath wildcard n taken s →
      ∃ u, u 0 = first ∧ task.AllowsPath wildcard n taken u ∧ ∀ t ≤ n, R (s t) (u t)
  violation : ∀ n taken s first, n < Word.limit → R (s 0) first →
    task.AllowsPath wildcard n taken s → task.system.Spoils task.configuration n taken s →
      ∃ n' taken' u, u 0 = first ∧ task.AllowsPath wildcard n taken u ∧
        task.system.Matches task.configuration wildcard R n taken s n' taken' u

/-- The formulas of a task follow every simulation of its system. -/
theorem simulates_of_isSimulation (built : task.WellBuilt) (declared : task.system.Declared)
    {R : State → State → Prop} (simulation : task.system.IsSimulation wildcard R) :
    task.Simulates wildcard R := by
  constructor
  case step =>
    intro step p transition s t u room related allows
    obtain ⟨has, takes, named, namedNext⟩ := (allows_iff built declared room).mp allows
    obtain ⟨v, takesToo, relatedNext⟩ := simulation.step p transition s t u has takes related
    exact ⟨v, (allows_iff built declared room).mpr ⟨has, takesToo,
      (simulation.names_iff related).mp named, (simulation.names_iff relatedNext).mp namedNext⟩,
      relatedNext⟩
  case path =>
    intro n taken s first room related allowed
    obtain ⟨u, begins, path, allRelated⟩ :=
      simulation.exists_path (allowed.isPath built declared room) related
    exact ⟨u, begins, allowed.of_isPath built declared room path
      fun t within => (simulation.names_iff (allRelated t within)).mp, allRelated⟩
  case violation =>
    intro n taken s first room related allowed spoils
    obtain ⟨n', taken', u, begins, same⟩ := simulation.exists_matches
      (allowed.isPath built declared room) related built.valid spoils
    have path : task.system.IsPath wildcard n taken u := by
      intro t before
      rw [← same.taken t before]
      exact same.path t (Nat.lt_of_lt_of_le before same.longer)
    exact ⟨n', taken', u, begins, allowed.of_isPath built declared room path
      fun t within => (simulation.names_iff (same.related t within)).mp, same⟩

end Task

/-- The formulas of a task follow the information in a state.  An optimistic step or path is allowed
from every state that knows less, and a pessimistic one from every state that knows more, with the
same transitions through states that are ordered in the same way.  So an optimistic violation is
found from every state that knows less and a pessimistic one from every state that knows more, by
going on with its loop if it is one. -/
theorem System.steps_follow_information {text : String} {system : System}
    {configuration : Configuration} (loaded : ModelFile.load text = .ok system)
    (fits : system.Fits) (once : system.AssignsOnce)
    (validated : (configuration.validate system).2 = .ok ()) :
    ∃ task, (Task.build system configuration).2 = .ok task ∧
      task.Simulates true (fun s' s => system.Below s s') ∧ task.Simulates false system.Below := by
  have declared := ModelFile.declared_of_load loaded
  obtain ⟨task, isBuilt, built⟩ := Task.exists_wellBuilt loaded validated fits
  obtain ⟨rfl, rfl, _⟩ := Task.build_ok isBuilt
  refine ⟨task, isBuilt, ?_, ?_⟩
  · exact Task.simulates_of_isSimulation built declared (isSimulation_below declared)
  · exact Task.simulates_of_isSimulation built declared (isSimulation_above declared once)

/-- A process that negates a predicate while it stays where it is.  As long as the predicate is
unknown the state does not change, and once it is known it does at every step. -/
theorem System.steps_follow_information_of_negating :
    let text := "\x7b\"predicates\": \x7b\"x\": 0\x7d, \"processes\": [[\x7b\"source\": 0, " ++
      "\"destination\": 0, \"assignments\": [\x7b\"predicate\": 0, \"RHS\": \"~x\"\x7d]\x7d]]\x7d"
    let negation : Transition := ⟨0, 0, .always, [⟨0, .plain (.not (.predicate 0))⟩]⟩
    let system : System := ⟨.ofList [("x", 0)], .empty, [⟨0, [negation]⟩]⟩
    let configuration : Configuration := ⟨.liveness, 1, [0], .all, 1, false, false⟩
    let veiled : State := ⟨fun _ => 0, fun _ => .unknown⟩
    let settled : State := ⟨fun _ => 0, fun _ => .yes⟩
    ModelFile.load text = .ok system ∧ system.Fits ∧ system.AssignsOnce ∧
      (configuration.validate system).2 = .ok () ∧ system.Below veiled settled ∧
        ∃ task, (Task.build system configuration).2 = .ok task ∧
          task.Allows false 0 0 negation veiled veiled ∧
            ∃ t, task.Allows false 0 0 negation settled t ∧ system.Below veiled t := by
  intro text negation system configuration veiled settled
  have loaded : ModelFile.load text = .ok system := by decide +kernel
  have fits : system.Fits := by
    intro process member
    obtain rfl := List.mem_singleton.mp member
    decide
  have once : system.AssignsOnce := by
    intro process member transition listed
    obtain rfl := List.mem_singleton.mp member
    obtain rfl := List.mem_singleton.mp listed
    exact List.nodup_singleton 0
  have validated : (configuration.validate system).2 = .ok () := by decide +kernel
  have below : system.Below veiled settled := ⟨fun _ _ => rfl, fun _ _ => .inl rfl⟩
  obtain ⟨task, isBuilt, _, above⟩ :=
    System.steps_follow_information loaded fits once validated
  have built := Task.wellBuilt_of_loaded loaded validated isBuilt
  have declared := ModelFile.declared_of_load loaded
  obtain ⟨isSystem, _⟩ := Task.build_ok isBuilt
  have takes : system.Takes false 0 negation veiled veiled := by
    constructor
    case source => rfl
    case destination => rfl
    case guard => rfl
    case updates => exact List.forall_mem_singleton.mpr (by decide)
    case frame => exact fun _ _ _ => rfl
    case idle => exact fun _ _ _ => rfl
  have names : system.Names veiled := fun _ _ => Nat.two_pow_pos _
  rw [← isSystem] at declared takes names below
  have allows : task.Allows false 0 0 negation veiled veiled := by
    apply (Task.allows_iff built declared (by decide)).mpr
    refine ⟨⟨⟨0, [negation]⟩, ?_, List.mem_singleton_self _⟩, takes, names, names⟩
    rw [isSystem]
    rfl
  rw [isSystem] at below
  exact ⟨loaded, fits, once, validated, below, task, isBuilt, allows,
    above.step 0 0 negation veiled veiled settled (by decide) below allows⟩

end Trivalent
