import Trivalent.Proofs.Formula.Built
import Trivalent.Proofs.Task.Basic
import Trivalent.Witness

/-!
# How encodings are made

Whatever is encoded, a state, a transition, a task or the path of a witness, its formula is made of
atoms and constants by the folding operations.  So it is told by its text.
-/

namespace Trivalent

open Formula (Built)
open Formula.Built (pair)

namespace Encoding

/-! ## States -/

theorem built_locationFormula (width process place step : Nat) (shadow : Bool) :
    (locationFormula width process place step shadow).Built := by
  unfold locationFormula
  split
  · exact .constant false
  · apply Built.conj
    rw [List.forall_mem_map]
    intro bit _
    dsimp only
    split
    · exact .atom _
    · exact .neg (.atom _)

theorem built_location {system : System} {process place step : Nat} {shadow : Bool} {f : Formula}
    (encoded : location system process place step shadow = .ok f) : f.Built := by
  rcases bind_eq_ok_iff.mp encoded with ⟨width, _, encoded⟩
  rcases bind_eq_ok_iff.mp encoded with ⟨_, _, encoded⟩
  obtain rfl := Except.ok.inj encoded
  exact built_locationFormula width process place step shadow

theorem built_statusFormula (predicate : Nat) (status : Status) (step : Nat) (shadow : Bool) :
    (statusFormula predicate status step shadow).Built := by
  cases status with
  | yes => exact .conj (pair (.neg (.atom _)) (.atom _))
  | no => exact .conj (pair (.neg (.atom _)) (.neg (.atom _)))
  | unknown => exact .atom _

/-! ## Terms -/

theorem built_occurrence (predicate : Nat) (positive : Bool) (step : Nat) :
    (occurrence predicate positive step).Built := by
  unfold occurrence
  apply Built.disj
  apply pair
  · exact .conj (pair (.atom _) (.atom _))
  · apply Built.conj
    apply pair (.neg (.atom _))
    split
    · exact .atom _
    · exact .neg (.atom _)

theorem built_normalFormula (step : Nat) (e : Expr) : (normalFormula step e).Built := by
  induction e using normalFormula.induct with
  | case1 value =>
      rw [normalFormula]
      exact .constant value
  | case2 id =>
      rw [normalFormula]
      exact built_occurrence id true step
  | case3 body id isPredicate =>
      rw [normalFormula, isPredicate]
      exact built_occurrence id false step
  | case4 body compound ih =>
      rw [normalFormula, compound]
      exact ih
  | case5 operands ih =>
      rw [normalFormula]
      exact .conj (List.forall_mem_map.mpr ih)
  | case6 operands ih =>
      rw [normalFormula]
      exact .disj (List.forall_mem_map.mpr ih)

theorem built_exprFormula (e : Expr) (step : Nat) (negated : Bool) :
    (exprFormula e step negated).Built :=
  built_normalFormula step (e.polarised negated)

theorem built_possibly (e : Expr) (step : Nat) (negated : Bool) : (possibly e step negated).Built :=
  .substitute .wildcard true (built_exprFormula e step negated)

theorem built_guard (term : Term) (step : Nat) : (guard term step).Built := by
  cases term with
  | plain body => exact built_exprFormula body step false
  | choice left right =>
      have holds := built_exprFormula left step false
      have fails := built_exprFormula right step true
      have mayFail := built_exprFormula right step false
      simp only [guard]
      split
      · exact .constant true
      split
      · exact .constant false
      split
      · exact .atom .wildcard
      · apply Built.conj
        apply pair (.disj (pair holds fails))
        apply Built.disj
        simpa using ⟨holds, mayFail, Built.atom .wildcard⟩

theorem built_updateChoice (left right : Expr) (predicate : Nat) :
    (updateChoice left right predicate).Built := by
  have becomes (status : Status) := built_statusFormula predicate status next false
  have reads (e : Expr) := built_exprFormula e current false
  have unsure := built_possibly (.disj [left, right]) current true
  unfold updateChoice
  dsimp only
  split
  · exact becomes .yes
  split
  · exact becomes .no
  split
  · exact becomes .unknown
  · have yes := Built.conj (pair (reads left) (becomes .yes))
    have no := Built.conj (pair (reads right) (becomes .no))
    have unknown := Built.conj (pair unsure (becomes .unknown))
    apply Built.disj
    simpa using ⟨yes, no, unknown⟩

/-! ## Transitions -/

theorem built_keepsStatus (predicate : Nat) : (keepsStatus predicate).Built := by
  apply Built.disj
  rw [List.forall_mem_map]
  intro status _
  exact .conj (pair (built_statusFormula predicate status current false)
    (built_statusFormula predicate status next false))

theorem built_frame (system : System) (modified : List Nat) : (frame system modified).Built := by
  apply Built.conj
  rw [List.forall_mem_map]
  exact fun predicate _ => built_keepsStatus predicate

theorem built_idle {system : System} {active : Nat} {f : Formula}
    (encoded : idle system active = .ok f) : f.Built := by
  rcases bind_eq_ok_iff.mp encoded with ⟨others, traversed, encoded⟩
  obtain rfl := Except.ok.inj encoded
  apply Built.conj
  intro g member
  rw [List.mem_flatten] at member
  obtain ⟨group, listed, member⟩ := member
  obtain ⟨process, _, kept⟩ := exists_of_mem_mapM traversed listed
  rcases bind_eq_ok_iff.mp kept with ⟨width, _, made⟩
  obtain rfl := Except.ok.inj made
  rcases List.mem_map.mp member with ⟨bit, _, rfl⟩
  exact .iff (.atom _) (.atom _)

theorem built_operation (system : System) (transition : Transition) :
    (operation system transition).Built := by
  apply Built.conj
  simp only [List.forall_mem_append, List.forall_mem_map, List.forall_mem_singleton]
  exact ⟨⟨built_guard _ _, fun assignment _ => built_updateChoice _ _ _⟩, built_frame system _⟩

/-- The parts of a template and the whole are made by the folding operations. -/
structure Template.Built (template : Template) : Prop where
  old : template.old.Built
  operation : template.operation.Built
  new : template.new.Built
  idle : template.idle.Built

theorem Template.Built.formula {template : Template} (built : template.Built) :
    template.formula.Built := by
  apply Formula.Built.conj
  simpa using ⟨built.old, built.operation, built.new, built.idle⟩

theorem built_template {system : System} {process : Nat} {transition : Transition}
    {made : Template} (encoded : template system process transition = .ok made) : made.Built := by
  rcases bind_eq_ok_iff.mp encoded with ⟨old, isOld, encoded⟩
  rcases bind_eq_ok_iff.mp encoded with ⟨new, isNew, encoded⟩
  rcases bind_eq_ok_iff.mp encoded with ⟨idle, isIdle, encoded⟩
  obtain rfl := Except.ok.inj encoded
  exact ⟨built_location isOld, built_operation system transition, built_location isNew,
    built_idle isIdle⟩

theorem built_of_mem_templates {system : System} {all : List Template}
    (encoded : templates system = .ok all) : ∀ made ∈ all, made.Built := by
  rcases bind_eq_ok_iff.mp encoded with ⟨groups, traversed, encoded⟩
  obtain rfl := Except.ok.inj encoded
  intro made member
  rw [List.mem_flatten] at member
  obtain ⟨group, listed, member⟩ := member
  obtain ⟨process, _, madeGroup⟩ := exists_of_mem_mapM traversed listed
  obtain ⟨transition, _, isTemplate⟩ := exists_of_mem_mapM madeGroup member
  exact built_template isTemplate

end Encoding

/-! ## Tasks -/

/-- The formulas that a task asks for are parts of what it lists. -/
theorem Task.mem_of_untilFalse {parts : List (Except Fault Formula)} {fs : List Formula}
    (made : untilFalse parts = .ok fs) : ∀ f ∈ fs, .ok f ∈ parts := by
  induction parts generalizing fs with
  | nil =>
      obtain rfl := Except.ok.inj made
      exact List.forall_mem_nil _
  | cons first rest ih =>
      rw [untilFalse] at made
      rcases bind_eq_ok_iff.mp made with ⟨f, isFirst, continued⟩
      subst isFirst
      split at continued
      · obtain rfl := Except.ok.inj continued
        simp
      · rcases bind_eq_ok_iff.mp continued with ⟨others, asked, made⟩
        obtain rfl := Except.ok.inj made
        rw [List.forall_mem_cons]
        exact ⟨List.mem_cons_self, fun g member => List.mem_cons_of_mem _ (ih asked g member)⟩

namespace Task

variable {task : Task} {f : Formula}

theorem built_initialProcess {process : Nat} {fs : List Formula}
    (encoded : task.initialProcess process = .ok fs) : ∀ f ∈ fs, f.Built := by
  rcases bind_eq_ok_iff.mp encoded with ⟨here, isHere, encoded⟩
  split at encoded
  · rcases bind_eq_ok_iff.mp encoded with ⟨shadow, isShadow, encoded⟩
    obtain rfl := Except.ok.inj encoded
    rw [List.forall_mem_cons, List.forall_mem_cons]
    refine ⟨Encoding.built_location isHere, Encoding.built_location isShadow, ?_⟩
    split
    · simpa using Built.neg (.atom _)
    · exact List.forall_mem_nil _
  · obtain rfl := Except.ok.inj encoded
    simpa using Encoding.built_location isHere

theorem built_initialPredicate (task : Task) (id : Nat) (name : String) :
    ∀ f ∈ task.initialPredicate id name, f.Built := by
  have starts (shadow : Bool) :=
    Encoding.built_statusFormula id (task.system.initialStatus name) 0 shadow
  rw [initialPredicate, List.forall_mem_cons]
  refine ⟨starts false, ?_⟩
  split
  · simpa using starts true
  · exact List.forall_mem_nil _

theorem built_initial (encoded : task.initial = .ok f) : f.Built := by
  rcases bind_eq_ok_iff.mp encoded with ⟨processes, traversed, encoded⟩
  obtain rfl := Except.ok.inj encoded
  apply Built.conj
  rw [List.forall_mem_append, List.forall_mem_append]
  refine ⟨⟨?_, ?_⟩, ?_⟩
  · intro f member
    rw [List.mem_flatten] at member
    obtain ⟨group, listed, member⟩ := member
    obtain ⟨process, _, made⟩ := exists_of_mem_mapM traversed listed
    exact built_initialProcess made f member
  · intro f member
    rw [List.mem_flatMap] at member
    obtain ⟨⟨id, name⟩, _, member⟩ := member
    exact built_initialPredicate task id name f member
  · split
    · exact pair (.neg (.atom _)) (.neg (.atom _))
    · exact List.forall_mem_nil _

theorem built_target {step : Nat} (encoded : task.target step = .ok f) : f.Built := by
  have places : ∀ made ∈ task.configuration.processes.map (fun process =>
      Encoding.location task.system process task.configuration.location step false),
      ∀ g, made = .ok g → g.Built := by
    rw [List.forall_mem_map]
    exact fun process _ g encoded => Encoding.built_location encoded
  unfold target at encoded
  dsimp only at encoded
  split at encoded
  · rcases bind_eq_ok_iff.mp encoded with ⟨fs, asked, encoded⟩
    obtain rfl := Except.ok.inj encoded
    exact .conj fun g member => places _ (mem_of_untilFalse asked g member) g rfl
  · rcases bind_eq_ok_iff.mp encoded with ⟨fs, traversed, encoded⟩
    obtain rfl := Except.ok.inj encoded
    apply Built.disj
    intro g member
    obtain ⟨made, listed, isMade⟩ := exists_of_mem_mapM traversed member
    exact places made listed g isMade

theorem built_shadowStep (step : Nat) (tracked : Atom) : (shadowStep step tracked).Built := by
  have now : (recordingNow step).Built := .conj (pair (.atom _) (.neg (.atom _)))
  exact .iff (.atom _) (.conj (pair (.implies now (.atom _)) (.implies (.neg now) (.atom _))))

theorem built_recording {step : Nat} (encoded : task.recording step = .ok f) : f.Built := by
  rcases bind_eq_ok_iff.mp encoded with ⟨after, _, encoded⟩
  rcases bind_eq_ok_iff.mp encoded with ⟨target, isTarget, encoded⟩
  obtain rfl := Except.ok.inj encoded
  have soFar : (recordingSoFar step).Built := .disj (pair (.atom _) (.atom _))
  apply Built.conj
  simp only [List.forall_mem_append, List.forall_mem_map, List.forall_mem_singleton]
  refine ⟨⟨.iff (.atom _) soFar, fun tracked _ => built_shadowStep step tracked⟩, ?_⟩
  exact .iff (.atom _) (.disj (pair (.atom _) (.conj (pair soFar (built_target isTarget)))))

theorem built_movements (task : Task) (parent step after : Nat) :
    (task.movements parent step after).Built := by
  apply Built.conj
  rw [List.forall_mem_map]
  intro process _
  split
  · exact .iff (.atom _) (.disj (pair (.atom _) (.atom _)))
  · exact .iff (.atom _) (.atom _)

theorem built_move {step : Nat} {template : Encoding.Template} (built : template.Built)
    (encoded : task.move step template = .ok f) : f.Built := by
  rcases bind_eq_ok_iff.mp encoded with ⟨taken, moved, encoded⟩
  have isTaken : taken.Built := built.formula.of_shiftWord moved
  split at encoded
  · rcases bind_eq_ok_iff.mp encoded with ⟨after, _, encoded⟩
    obtain rfl := Except.ok.inj encoded
    exact .conj (pair isTaken (built_movements task _ _ _))
  · obtain rfl := Except.ok.inj encoded
    exact isTaken

theorem built_step {step : Nat} (built : ∀ template ∈ task.templates, template.Built)
    (encoded : task.step step = .ok f) : f.Built := by
  rcases bind_eq_ok_iff.mp encoded with ⟨moves, traversed, encoded⟩
  have some : (Formula.disj moves).Built := by
    apply Built.disj
    intro g member
    obtain ⟨template, listed, made⟩ := exists_of_mem_mapM traversed member
    exact built_move (built template listed) made
  split at encoded
  · rcases bind_eq_ok_iff.mp encoded with ⟨recorded, isRecorded, encoded⟩
    obtain rfl := Except.ok.inj encoded
    exact .conj (pair some (built_recording isRecorded))
  · obtain rfl := Except.ok.inj encoded
    exact some

theorem built_loop (task : Task) (step : Nat) : (task.loop step).Built := by
  apply Built.conj
  simp only [List.forall_mem_append, List.forall_mem_map, List.forall_mem_singleton]
  refine ⟨⟨⟨.atom _, fun tracked _ => .iff (.atom _) (.atom _)⟩, .neg (.atom _)⟩, ?_⟩
  split
  · rw [List.forall_mem_map]
    exact fun process _ => .atom _
  · exact List.forall_mem_nil _

theorem built_property {step : Nat} (encoded : task.property step = .ok f) : f.Built := by
  unfold property at encoded
  split at encoded
  · exact built_target encoded
  · obtain rfl := Except.ok.inj encoded
    exact built_loop task step

end Task

/-! ## Witnesses -/

theorem WitnessStep.built_of_mem_pins {system : System} {s : WitnessStep} {f : Formula}
    (pinned : .ok f ∈ s.pins system) : f.Built := by
  rw [pins, List.mem_append] at pinned
  rcases pinned with located | known
  · rcases List.mem_map.mp located with ⟨⟨place, process⟩, _, encoded⟩
    exact Encoding.built_location encoded
  · rw [List.mem_filterMap] at known
    obtain ⟨⟨name, status⟩, _, known⟩ := known
    dsimp only at known
    split at known
    · contradiction
    · rw [Option.map_eq_some_iff] at known
      obtain ⟨id, _, encoded⟩ := known
      obtain rfl := Except.ok.inj encoded
      exact Encoding.built_statusFormula id status s.step false

theorem Witness.built_formula {system : System} {witness : List WitnessStep} {f : Formula}
    (encoded : formula system witness = .ok f) : f.Built := by
  rcases bind_eq_ok_iff.mp encoded with ⟨fs, asked, encoded⟩
  obtain rfl := Except.ok.inj encoded
  apply Built.conj
  intro g member
  rcases List.mem_flatMap.mp (Task.mem_of_untilFalse asked g member) with ⟨s, _, pinned⟩
  exact WitnessStep.built_of_mem_pins pinned

/-! ## All encodings -/

/-- The formulas that encode states, terms, transitions, tasks and the paths of witnesses. -/
inductive Encodes : Formula → Prop where
  | location {system : System} {process place step : Nat} {shadow : Bool} {f : Formula} :
      Encoding.location system process place step shadow = .ok f → Encodes f
  | status (predicate : Nat) (status : Status) (step : Nat) (shadow : Bool) :
      Encodes (Encoding.statusFormula predicate status step shadow)
  | occurrence (predicate : Nat) (positive : Bool) (step : Nat) :
      Encodes (Encoding.occurrence predicate positive step)
  | expression (e : Expr) (step : Nat) (negated : Bool) :
      Encodes (Encoding.exprFormula e step negated)
  | possibly (e : Expr) (step : Nat) (negated : Bool) :
      Encodes (Encoding.possibly e step negated)
  | guard (term : Term) (step : Nat) : Encodes (Encoding.guard term step)
  | updateChoice (left right : Expr) (predicate : Nat) :
      Encodes (Encoding.updateChoice left right predicate)
  | update (assignment : Assignment) : Encodes (Encoding.update assignment)
  | frame (system : System) (modified : List Nat) : Encodes (Encoding.frame system modified)
  | idle {system : System} {active : Nat} {f : Formula} :
      Encoding.idle system active = .ok f → Encodes f
  | operation (system : System) (transition : Transition) :
      Encodes (Encoding.operation system transition)
  | template {system : System} {process : Nat} {transition : Transition}
      {made : Encoding.Template} {f : Formula} :
      Encoding.template system process transition = .ok made →
        f ∈ [made.old, made.operation, made.new, made.idle, made.formula] → Encodes f
  | instantiate {system : System} {process step : Nat} {transition : Transition}
      {made : Encoding.Template} {f : Formula} :
      Encoding.template system process transition = .ok made → made.instantiate step = .ok f →
        Encodes f
  | initial {task : Task} {f : Formula} : task.initial = .ok f → Encodes f
  | target {task : Task} {step : Nat} {f : Formula} : task.target step = .ok f → Encodes f
  | recording {task : Task} {step : Nat} {f : Formula} : task.recording step = .ok f → Encodes f
  | step {system : System} {configuration : Configuration} {task : Task} {step : Nat}
      {f : Formula} :
      (Task.build system configuration).2 = .ok task → task.step step = .ok f → Encodes f
  | property {task : Task} {step : Nat} {f : Formula} : task.property step = .ok f → Encodes f
  | witness {system : System} {witness : List WitnessStep} {f : Formula} :
      Witness.formula system witness = .ok f → Encodes f

theorem Encodes.built {f : Formula} (encodes : Encodes f) : f.Built := by
  induction encodes with
  | location encoded => exact Encoding.built_location encoded
  | status predicate status step shadow =>
      exact Encoding.built_statusFormula predicate status step shadow
  | occurrence predicate positive step => exact Encoding.built_occurrence predicate positive step
  | expression e step negated => exact Encoding.built_exprFormula e step negated
  | possibly e step negated => exact Encoding.built_possibly e step negated
  | guard term step => exact Encoding.built_guard term step
  | updateChoice left right predicate => exact Encoding.built_updateChoice left right predicate
  | update assignment => exact Encoding.built_updateChoice _ _ assignment.predicate
  | frame system modified => exact Encoding.built_frame system modified
  | idle encoded => exact Encoding.built_idle encoded
  | operation system transition => exact Encoding.built_operation system transition
  | @template _ _ _ made f encoded part =>
      have built := Encoding.built_template encoded
      have parts : ∀ f ∈ [made.old, made.operation, made.new, made.idle, made.formula],
          f.Built := by
        simpa using ⟨built.old, built.operation, built.new, built.idle, built.formula⟩
      exact parts f part
  | instantiate encoded moved => exact (Encoding.built_template encoded).formula.of_shiftWord moved
  | initial encoded => exact Task.built_initial encoded
  | target encoded => exact Task.built_target encoded
  | recording encoded => exact Task.built_recording encoded
  | step built encoded =>
      obtain ⟨_, _, templates, _⟩ := Task.build_ok built
      exact Task.built_step (Encoding.built_of_mem_templates templates) encoded
  | property encoded => exact Task.built_property encoded
  | witness encoded => exact Witness.built_formula encoded

namespace Formula

/-- Formulas that are made by the folding operations, among them all encodings, are told by their
texts, and so are atoms by their names. -/
theorem text_inj_on_built :
    (∀ f g : Formula, f.Built → g.Built → f.text = g.text → f = g) ∧
      (∀ a b : Atom, a.text = b.text → a = b) ∧ ∀ f : Formula, Encodes f → f.Built :=
  ⟨fun _ _ built builtToo same => built.plural.text_inj builtToo.plural same,
    fun _ _ same => Atom.text_inj same, fun _ encodes => encodes.built⟩

/-- Two ways of making the conjunction of three atoms make the same tree. -/
theorem conj_nested_eq :
    (conj [.atom (.record 0), conj [.atom (.recorded 0), .atom .wildcard]]).text =
        "re_0 & rd_0 & unknown" ∧
      conj [.atom (.record 0), conj [.atom (.recorded 0), .atom .wildcard]] =
        conj [conj [.atom (.record 0), .atom (.recorded 0)], .atom .wildcard] ∧
      (Encoding.occurrence 0 true 0).Built := by
  have inner (a b : Atom) : (conj [.atom a, .atom b]).Built :=
    .conj (Built.pair (.atom a) (.atom b))
  refine ⟨by decide, text_inj_on_built.1 _ _ ?_ ?_ (by decide),
    text_inj_on_built.2.2 _ (.occurrence 0 true 0)⟩
  · exact .conj (Built.pair (.atom _) (inner _ _))
  · exact .conj (Built.pair (inner _ _) (.atom _))

end Formula

end Trivalent
