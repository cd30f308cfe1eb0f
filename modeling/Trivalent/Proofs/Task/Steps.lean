import Trivalent.Proofs.Task.Formulas

/-!
# What the step and property formulas say

The formula of a step says that some process moves and that the registers of a recording follow; the
formula of the property says that the target is met, or that the state of the step is the recorded
one again.  The shadow of a state follows bit by bit, so the two states are compared by their bits
here.
-/

namespace Trivalent

/-- Whether the state of a step has been recorded when the step is left. -/
def Valuation.recordedAfter (v : Valuation) (step : Nat) : Bool :=
  v (.record step) || v (.recorded step)

/-- Whether the state of a step is the one that is recorded. -/
def Valuation.recordsAt (v : Valuation) (step : Nat) : Bool :=
  v (.record step) && !v (.recorded step)

namespace Task

variable {task : Task}

/-! ## Recording -/

/-- The registers of a recording go on from a step to the next one. -/
structure Records (task : Task) (step : Nat) (v : Valuation) : Prop where
  recorded : v (.recorded (step + 1)) = v.recordedAfter step
  shadow : ∀ a ∈ task.tracked, v ((a.shift step).shadowed.shift 1) =
    if v.recordsAt step then v (a.shift step) else v (a.shift step).shadowed
  progress : v (.progress (step + 1)) = true ↔ v (.progress step) = true ∨
    v.recordedAfter step = true ∧ task.configuration.Meets (v.stateAt task.system step)

/-- The registers of the processes that have moved go on when process `p` moves. -/
def Follows (task : Task) (p step : Nat) (v : Valuation) : Prop :=
  ∀ q < task.system.processes.length,
    v (.fair q (step + 1)) = if q = p then v.recordedAfter step else v (.fair q step)

theorem eval_recordingNow (v : Valuation) (step : Nat) :
    (recordingNow step).eval v = v.recordsAt step := by
  simp [recordingNow, Valuation.recordsAt]

theorem eval_recordingSoFar (v : Valuation) (step : Nat) :
    (recordingSoFar step).eval v = v.recordedAfter step := by
  simp [recordingSoFar, Valuation.recordedAfter]

theorem eval_shadowStep (v : Valuation) (step : Nat) (a : Atom) :
    (shadowStep step a).eval v = true ↔ v ((a.shift step).shadowed.shift 1) =
      if v.recordsAt step then v (a.shift step) else v (a.shift step).shadowed := by
  cases now : v.recordsAt step <;> simp [shadowStep, eval_recordingNow, now]

/-- The recording formula of a step tells how the registers go on if the target formula of the step
says whether the target is met. -/
theorem denotes_recording_of_target {step : Nat} {met : Valuation → Prop}
    (target : Denotes (task.target step) met) (room : step + 1 < Word.limit) :
    Denotes (task.recording step) fun v =>
      v (.recorded (step + 1)) = v.recordedAfter step ∧
        (∀ a ∈ task.tracked, v ((a.shift step).shadowed.shift 1) =
          if v.recordsAt step then v (a.shift step) else v (a.shift step).shadowed) ∧
          (v (.progress (step + 1)) = true ↔
            v (.progress step) = true ∨ v.recordedAfter step = true ∧ met v) := by
  obtain ⟨target, found, meaning⟩ := target
  have after : Word.add step 1 = .ok (step + 1) := Word.add_eq_ok_iff.mpr ⟨rfl, room⟩
  refine ⟨_, by rw [recording, after, found]; rfl, Formula.expresses_conj fun v => ?_⟩
  rw [List.forall_mem_append, List.forall_mem_append, List.forall_mem_singleton,
    List.forall_mem_singleton, List.forall_mem_map, and_assoc]
  simp only [eval_shadowStep, Formula.eval_iff, Formula.eval_atom, beq_iff_eq,
    eval_recordingSoFar]
  rw [Bool.eq_iff_iff (b := (Formula.disj _).eval v)]
  simp only [Formula.eval_disj, Formula.eval_conj, List.any_cons, List.any_nil, List.all_cons,
    List.all_nil, Formula.eval_atom, eval_recordingSoFar, Bool.or_false, Bool.and_true,
    Bool.or_eq_true, Bool.and_eq_true, meaning v]

/-- The recording formula of a step tells how the registers go on. -/
theorem denotes_recording (built : task.WellBuilt) {step : Nat} (room : step + 1 < Word.limit) :
    Denotes (task.recording step) (task.Records step) := by
  refine (denotes_recording_of_target (denotes_target built step) room).congr fun v => ?_
  constructor
  · rintro ⟨recorded, shadow, progress⟩
    exact ⟨recorded, shadow, progress⟩
  · intro records
    exact ⟨records.recorded, records.shadow, records.progress⟩

/-- Where a recording formula is there, the next step has a number and the target has a formula. -/
theorem recording_eq_ok {step : Nat} {f : Formula} (found : task.recording step = .ok f) :
    step + 1 < Word.limit ∧ ∃ target, task.target step = .ok target := by
  rcases bind_eq_ok_iff.mp found with ⟨after, isNext, found⟩
  rcases bind_eq_ok_iff.mp found with ⟨target, isTarget, _⟩
  obtain ⟨rfl, room⟩ := Word.add_eq_ok_iff.mp isNext
  exact ⟨room, target, isTarget⟩

theorem movements_expresses (numbered : task.system.Numbered) (p step : Nat) :
    (task.movements p step (step + 1)).Expresses (task.Follows p step) := by
  apply Formula.expresses_conj
  intro v
  have each : ∀ q, (if q = p then Formula.iff (.atom (.fair q (step + 1)))
        (.disj [.atom (.record step), .atom (.recorded step)])
      else .iff (.atom (.fair q (step + 1))) (.atom (.fair q step))).eval v = true ↔
        v (.fair q (step + 1)) = if q = p then v.recordedAfter step else v (.fair q step) := by
    intro q
    by_cases same : q = p
    · simp [same, Valuation.recordedAfter]
    · simp [same]
  simp only [List.forall_mem_map, each]
  exact numbered.forall_iff (P := fun q =>
    v (.fair q (step + 1)) = if q = p then v.recordedAfter step else v (.fair q step))

/-! ## Steps -/

/-- A template that has a formula at a step tells that its transition is taken and how the movements
go on. -/
theorem denotes_move_of_instantiate (numbered : task.system.Numbered) {step : Nat}
    {made : Encoding.Template} {taken : Formula} (isTaken : made.instantiate step = .ok taken)
    (room : step + 1 < Word.limit) :
    Denotes (task.move step made) fun v =>
      Holds v (made.instantiate step) ∧
        (task.configuration.isFair = true → task.Follows made.parent step v) := by
  have after : Word.add step 1 = .ok (step + 1) := Word.add_eq_ok_iff.mpr ⟨rfl, room⟩
  rw [move, isTaken]
  cases fair : task.configuration.isFair with
  | false =>
      refine ⟨taken, by simp [bind, Except.bind, pure, Except.pure], fun v => ?_⟩
      simp [holds_ok]
  | true =>
      refine ⟨.conj [taken, task.movements made.parent step (step + 1)],
        by simp [bind, Except.bind, pure, Except.pure, after], fun v => ?_⟩
      simp [holds_ok, movements_expresses numbered made.parent step v]

/-- A template at a step tells that its transition is taken and how the movements go on. -/
theorem denotes_move (built : task.WellBuilt) {step : Nat} (room : step + 1 < Word.limit) :
    ∀ made ∈ task.templates, Denotes (task.move step made) fun v =>
      Holds v (made.instantiate step) ∧
        (task.configuration.isFair = true → task.Follows made.parent step v) := by
  intro made member
  obtain ⟨p, process, found, transition, _, isTemplate⟩ :=
    (Encoding.mem_templates built.numbered built.templates).mp member
  have inside := (List.getElem?_eq_some_iff.mp found).1
  obtain ⟨made', isTemplateToo, _, takes⟩ :=
    Encoding.exists_instance built.numbered built.fits inside transition
  obtain rfl := Except.ok.inj (isTemplate.symm.trans isTemplateToo)
  obtain ⟨taken, isTaken, _⟩ := takes step room
  exact denotes_move_of_instantiate built.numbered isTaken room

/-- Some template is taken at a step exactly if some process moves there. -/
theorem exists_taken_iff (built : task.WellBuilt) {step : Nat} (room : step + 1 < Word.limit)
    (v : Valuation) :
    (∃ made ∈ task.templates, Holds v (made.instantiate step) ∧
        (task.configuration.isFair = true → task.Follows made.parent step v)) ↔
      ∃ p, task.system.Moves (v .wildcard) p (v.stateAt task.system step)
          (v.stateAt task.system (step + 1)) ∧
        (task.configuration.isFair = true → task.Follows p step v) := by
  constructor
  · rintro ⟨made, member, isTaken, follows⟩
    obtain ⟨p, process, found, transition, listed, isTemplate⟩ :=
      (Encoding.mem_templates built.numbered built.templates).mp member
    have inside := (List.getElem?_eq_some_iff.mp found).1
    obtain ⟨made', isTemplateToo, parent, takes⟩ :=
      Encoding.exists_instance built.numbered built.fits inside transition
    obtain rfl := Except.ok.inj (isTemplate.symm.trans isTemplateToo)
    obtain rfl := parent
    exact ⟨made.parent,
      ⟨process, found, transition, listed, ((takes step room).holds_iff v).mp isTaken⟩, follows⟩
  · rintro ⟨p, ⟨process, found, transition, listed, taken⟩, follows⟩
    have inside := (List.getElem?_eq_some_iff.mp found).1
    obtain ⟨made, isTemplate, parent, takes⟩ :=
      Encoding.exists_instance built.numbered built.fits inside transition
    obtain rfl := parent
    refine ⟨made, ?_, ((takes step room).holds_iff v).mpr taken, follows⟩
    exact (Encoding.mem_templates built.numbered built.templates).mpr
      ⟨made.parent, process, found, transition, listed, isTemplate⟩

/-- The formula of a step tells that a process moves there and that the registers go on. -/
theorem denotes_step (built : task.WellBuilt) {step : Nat} (room : step + 1 < Word.limit) :
    Denotes (task.step step) fun v =>
      (∃ p, task.system.Moves (v .wildcard) p (v.stateAt task.system step)
          (v.stateAt task.system (step + 1)) ∧
        (task.configuration.isFair = true → task.Follows p step v)) ∧
      (task.configuration.isLiveness = true → task.Records step v) := by
  obtain ⟨moves, traversed, meanings⟩ := mapM_ok (denotes_move built room)
  have moved : (Formula.disj moves).Expresses fun v =>
      ∃ p, task.system.Moves (v .wildcard) p (v.stateAt task.system step)
          (v.stateAt task.system (step + 1)) ∧
        (task.configuration.isFair = true → task.Follows p step v) := by
    intro v
    rw [Formula.eval_disj, List.any_eq_true, exists_eval_iff meanings v]
    exact exists_taken_iff built room v
  obtain ⟨recording, found, records⟩ := denotes_recording built room
  rw [Task.step, traversed]
  cases liveness : task.configuration.isLiveness with
  | false =>
      refine ⟨.disj moves, by simp [bind, Except.bind, pure, Except.pure], fun v => ?_⟩
      rw [moved v]
      simp
  | true =>
      refine ⟨.conj [.disj moves, recording],
        by simp [bind, Except.bind, pure, Except.pure, found], fun v => ?_⟩
      simp only [Formula.eval_conj, List.all_cons, List.all_nil, Bool.and_true, Bool.and_eq_true,
        moved v, records v, forall_const]

/-- Where loops are searched for, the formula of a step tells that some template and the recording
hold at the step. -/
theorem holds_step {step : Nat} {v : Valuation} (liveness : task.configuration.isLiveness = true)
    (holds : Holds v (task.step step)) :
    (∃ made ∈ task.templates, Holds v (task.move step made)) ∧ Holds v (task.recording step) := by
  rcases holds with ⟨f, isStep, isTrue⟩
  rcases bind_eq_ok_iff.mp isStep with ⟨moves, traversed, isStep⟩
  rw [if_pos liveness] at isStep
  rcases bind_eq_ok_iff.mp isStep with ⟨recording, isRecording, same⟩
  obtain rfl := Except.ok.inj same
  simp only [Formula.eval_conj, Formula.eval_disj, List.all_cons, List.all_nil, Bool.and_true,
    Bool.and_eq_true, List.any_eq_true] at isTrue
  rcases isTrue with ⟨⟨move, listed, moved⟩, records⟩
  obtain ⟨made, member, isMove⟩ := exists_of_mem_mapM traversed listed
  exact ⟨⟨made, member, move, isMove, moved⟩, recording, isRecording, records⟩

/-! ## The property -/

/-- The state of a step is the recorded one, bit by bit, and was left without meeting the target. -/
structure Loops (task : Task) (step : Nat) (v : Valuation) : Prop where
  recorded : v (.recorded step) = true
  closes : ∀ a ∈ task.tracked, v (a.shift step) = v (a.shift step).shadowed
  progress : v (.progress step) = false
  fair : task.configuration.fairness = true →
    ∀ p < task.system.processes.length, v (.fair p step) = true

theorem loop_expresses (built : task.WellBuilt) (step : Nat) :
    (task.loop step).Expresses (task.Loops step) := by
  apply Formula.expresses_conj
  intro v
  have fair : (∀ f ∈ (if task.configuration.fairness then
        task.system.processes.map fun p => Formula.atom (.fair p.id step) else []),
          f.eval v = true) ↔
      (task.configuration.fairness = true →
        ∀ p < task.system.processes.length, v (.fair p step) = true) := by
    cases task.configuration.fairness with
    | false => simp
    | true =>
        simp only [if_true, List.forall_mem_map, Formula.eval_atom, forall_const]
        exact built.numbered.forall_iff (P := fun p => v (.fair p step) = true)
  simp only [List.forall_mem_append, List.forall_mem_singleton, List.forall_mem_map,
    Formula.eval_iff, Formula.eval_atom, Formula.eval_neg, beq_iff_eq, Bool.not_eq_true', fair]
  constructor
  · rintro ⟨⟨⟨recorded, closes⟩, progress⟩, fair⟩
    exact ⟨recorded, closes, progress, fair⟩
  · intro loops
    exact ⟨⟨⟨loops.recorded, loops.closes⟩, loops.progress⟩, loops.fair⟩

/-- The property is a target or a loop. -/
def Reaches (task : Task) (step : Nat) (v : Valuation) : Prop :=
  match task.configuration.property with
  | .reachability => task.configuration.Meets (v.stateAt task.system step)
  | .liveness => task.Loops step v

theorem reaches_reachability_iff {step : Nat} {v : Valuation}
    (reachability : task.configuration.property = .reachability) :
    task.Reaches step v ↔ task.configuration.Meets (v.stateAt task.system step) := by
  unfold Reaches
  rw [reachability]

theorem reaches_liveness_iff {step : Nat} {v : Valuation}
    (liveness : task.configuration.property = .liveness) :
    task.Reaches step v ↔ task.Loops step v := by
  unfold Reaches
  rw [liveness]

/-- The formula of the property tells that the target is met or that a loop is closed. -/
theorem denotes_property (built : task.WellBuilt) (step : Nat) :
    Denotes (task.property step) (task.Reaches step) := by
  unfold property Reaches
  cases task.configuration.property with
  | reachability => exact denotes_target built step
  | liveness => exact denotes_ok (loop_expresses built step)

end Task

end Trivalent
