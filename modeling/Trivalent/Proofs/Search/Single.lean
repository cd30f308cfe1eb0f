import Trivalent.Proofs.Search.Sweep

/-!
# Searches at one depth

A search at one depth extends the run to it and tells whether there is a violation among the runs that
satisfy its conditions and constraints.  It takes no possible violation for an answer.  Whether or not
its query is answered, it has come to its depth.
-/

namespace Trivalent

/-- Feedback on the runs of one depth that satisfy further constraints: there is no violation among
them, or one that does not depend on unknown predicates is shown. -/
inductive Task.AnswersAt (task : Task) (condition property : Valuation → Prop) (n : Nat)
    (feedback : Feedback) : Prop where
  | refuted (none : feedback = .noneUpTo n) (never : ¬task.Possible condition property n true)
  | confirmed (definite : feedback.verdict = .definite)
      (finds : task.Finds condition property n feedback)

namespace Search

open Trivalent.Action

variable {σ : Type} {solver : Sat.Solver σ} {task : Task} {search search' : Search σ}
  {condition : Valuation → Prop}

variable (solver task) in
/-- A search of one depth that is not to go on where the search has come to, or is to go back, ends at
once with a fault. -/
theorem exists_fault_evaluateAt (constraints : List Formula) {depth start : Nat}
    (notOn : ¬(start = search.step ∧ start ≤ depth)) :
    ∃ fault, Fails (evaluateAt solver task constraints depth start) search (.fault fault) search := by
  by_cases elsewhere : start = search.step
  · obtain rfl := elsewhere
    have behind : depth < search.step := Nat.lt_of_not_le fun ahead => notOn ⟨rfl, ahead⟩
    refine ⟨.cannotShrink, fails_bind_iff.mpr (.inr
      ⟨(), search, runs_checkStart_iff.mpr ⟨rfl, rfl⟩, ?_⟩)⟩
    rw [if_pos behind]
    exact fails_bind_iff.mpr (.inl (fails_fail_iff.mpr ⟨rfl, rfl⟩))
  · exact ⟨_, fails_bind_iff.mpr (.inl (fails_checkStart elsewhere))⟩

/-- So one that ends with any other error goes on where it has come to. -/
theorem goesOn_of_fails {constraints : List Formula} {depth start : Nat} {error : CheckError}
    (fails : Fails (evaluateAt solver task constraints depth start) search error search')
    (notFault : ∀ fault, error ≠ .fault fault) : start = search.step ∧ start ≤ depth := by
  by_contra notOn
  obtain ⟨fault, failsToo⟩ := exists_fault_evaluateAt solver task constraints notOn
  exact notFault fault (Except.error.inj (fails.1.symm.trans failsToo.1))

/-- How a search at one depth ends, by the class of the depth. -/
def resultAt (depth : Nat) : Option Feedback → Except CheckError Feedback
  | none => .ok (.noneUpTo depth)
  | some feedback =>
      if feedback.verdict = .possible then .error (.uncertain depth) else .ok feedback

variable (solver) in
/-- A search at one depth ends as the depth is classified when it has come there. -/
theorem exists_classify_evaluateAt (built : task.WellBuilt)
    (resumes : search.Resumes task condition) {constraints : List Formula}
    {further : Valuation → Prop}
    (meaning : ∀ v, (∀ f ∈ constraints, f.eval v = true) ↔ further v) {depth : Nat}
    (room : depth < Word.limit) (ahead : search.step ≤ depth) :
    ∃ f between, f.Expresses (fun v => further v ∧ task.Reaches depth v) ∧
      between.Knows task condition ∧ between.step = depth ∧
      (evaluateAt solver task constraints depth search.step search).result =
        (classify solver task f depth between).result.bind (resultAt depth) ∧
      (evaluateAt solver task constraints depth search.step search).state =
        (classify solver task f depth between).state := by
  have started : Runs (checkStart search.step) search () search :=
    runs_checkStart_iff.mpr ⟨rfl, rfl⟩
  obtain ⟨second, begun⟩ := exists_runs_begin built search.step search
  obtain ⟨knows, step⟩ := runs_begin resumes begun
  obtain ⟨third, extended, knows', here⟩ :=
    exists_runs_extendTo built knows (step ▸ ahead) room
  obtain ⟨f, isProperty, reaches⟩ := Task.denotes_property built depth
  have found : Runs (.ofFault (task.property depth)) third f third :=
    runs_ofFault_iff.mpr ⟨isProperty, rfl⟩
  have asked : (Formula.conj (constraints ++ [f])).Expresses fun v =>
      further v ∧ task.Reaches depth v := by
    apply Formula.expresses_conj
    intro v
    rw [List.forall_mem_append, List.forall_mem_singleton, meaning v, reaches v]
  refine ⟨_, third, asked, knows', here, ?_, ?_⟩
  · rw [evaluateAt, started.bind_result, if_neg (Nat.not_lt_of_le ahead), begun.bind_result,
      extended.bind_result, found.bind_result]
    cases outcome : (classify solver task (.conj (constraints ++ [f])) depth third).result with
    | error error => rw [bind_of_error outcome]; rfl
    | ok answer =>
        rw [bind_of_ok outcome]
        cases answer with
        | none => rfl
        | some feedback =>
            dsimp only [Except.bind, resultAt]
            split <;> rfl
  · rw [evaluateAt, started.bind_state, if_neg (Nat.not_lt_of_le ahead), begun.bind_state,
      extended.bind_state, found.bind_state]
    cases outcome : (classify solver task (.conj (constraints ++ [f])) depth third).result with
    | error error => rw [bind_of_error outcome]
    | ok answer =>
        rw [bind_of_ok outcome]
        cases answer with
        | none => rfl
        | some feedback =>
            dsimp only
            split <;> rfl

/-- A search at one depth ends with how the depth is classified, if the violation is a definite
one. -/
theorem runs_evaluateAt_classify (built : task.WellBuilt) (resumes : search.Resumes task condition)
    {constraints : List Formula} {further : Valuation → Prop}
    (meaning : ∀ v, (∀ f ∈ constraints, f.eval v = true) ↔ further v) {depth start : Nat}
    (room : depth < Word.limit) {feedback : Feedback}
    (runs : Runs (evaluateAt solver task constraints depth start) search feedback search') :
    ∃ f answer between, f.Expresses (fun v => further v ∧ task.Reaches depth v) ∧
      between.Knows task condition ∧ between.step = depth ∧
        Runs (classify solver task f depth) between answer search' ∧
          match answer with
          | some found => found = feedback ∧ feedback.verdict ≠ .possible
          | none => feedback = .noneUpTo depth := by
  by_cases goesOn : start = search.step ∧ start ≤ depth
  · obtain ⟨rfl, ahead⟩ := goesOn
    obtain ⟨f, between, asked, knows, here, result, state⟩ :=
      exists_classify_evaluateAt solver built resumes meaning room ahead
    rw [runs.1] at result
    cases outcome : (classify solver task f depth between).result with
    | error error =>
        rw [outcome] at result
        exact nomatch result
    | ok answer =>
        rw [outcome] at result
        refine ⟨f, answer, between, asked, knows, here, ⟨outcome, state.symm.trans runs.2⟩, ?_⟩
        cases answer with
        | none => exact Except.ok.inj result
        | some found =>
            change Except.ok feedback = ite _ _ _ at result
            split at result
            · contradiction
            · rename_i notPossible
              obtain rfl := Except.ok.inj result
              exact ⟨rfl, notPossible⟩
  · obtain ⟨_, fails⟩ := exists_fault_evaluateAt solver task constraints goesOn
    exact absurd fails runs.not_fails

/-- A search at one depth answers for the runs that satisfy its conditions and the constraints. -/
theorem runs_evaluateAt (built : task.WellBuilt) (sound : solver.Sound)
    (resumes : search.Resumes task condition) {constraints : List Formula}
    {further : Valuation → Prop}
    (meaning : ∀ v, (∀ f ∈ constraints, f.eval v = true) ↔ further v) {depth start : Nat}
    (room : depth < Word.limit) {feedback : Feedback}
    (runs : Runs (evaluateAt solver task constraints depth start) search feedback search') :
    task.AnswersAt condition (fun v => further v ∧ task.Reaches depth v) depth feedback ∧
      search'.Knows task condition ∧ search'.step = depth := by
  obtain ⟨f, answer, between, asked, knows, here, classified, rest⟩ :=
    runs_evaluateAt_classify built resumes meaning room runs
  obtain ⟨same, classifies⟩ := runs_classify sound knows asked here classified
  refine ⟨?_, same.knows knows, same.step.trans here⟩
  cases answer with
  | none => exact .refuted rest classifies
  | some answer =>
      obtain ⟨rfl, notPossible⟩ := rest
      exact .confirmed (Verdict.eq_definite notPossible classifies.found) classifies

/-- A search at one depth ends as the depth is classified, unless a query is not answered.  In either
case it has come there. -/
theorem outcome_evaluateAt (built : task.WellBuilt) (sound : solver.Sound)
    (resumes : search.Resumes task condition) {constraints : List Formula}
    {further : Valuation → Prop}
    (meaning : ∀ v, (∀ f ∈ constraints, f.eval v = true) ↔ further v) {depth : Nat}
    (room : depth < Word.limit) (ahead : search.step ≤ depth) :
    (evaluateAt solver task constraints depth search.step search).state.Knows task condition ∧
      (evaluateAt solver task constraints depth search.step search).state.step = depth ∧
      ((evaluateAt solver task constraints depth search.step search).result = .error .solverFailed ∨
        ∃ answer,
          task.Classifies condition (fun v => further v ∧ task.Reaches depth v) depth answer ∧
          (evaluateAt solver task constraints depth search.step search).result =
            resultAt depth answer) := by
  obtain ⟨f, between, asked, knows, here, result, state⟩ :=
    exists_classify_evaluateAt solver built resumes meaning room ahead
  rw [state, result]
  rcases runs_or_fails (classify solver task f depth) between with ⟨answer, runs⟩ | ⟨error, fails⟩
  · obtain ⟨same, classifies⟩ := runs_classify sound knows asked here runs
    exact ⟨same.knows knows, same.step.trans here, .inr ⟨answer, classifies, by rw [runs.1]; rfl⟩⟩
  · obtain ⟨rfl, same⟩ := fails_classify built.fits fails
    exact ⟨same.knows knows, same.step.trans here, .inl (by rw [fails.1]; rfl)⟩

/-- A search at one depth ends as the depth is classified if its solver answers. -/
theorem exists_classifies_evaluateAt (built : task.WellBuilt) (sound : solver.Sound)
    (answersFrom : solver.AnswersFrom search.solver)
    (resumes : search.Resumes task condition) {constraints : List Formula}
    {further : Valuation → Prop}
    (meaning : ∀ v, (∀ f ∈ constraints, f.eval v = true) ↔ further v) {depth : Nat}
    (room : depth < Word.limit) (ahead : search.step ≤ depth) :
    ∃ answer,
      task.Classifies condition (fun v => further v ∧ task.Reaches depth v) depth answer ∧
      (evaluateAt solver task constraints depth search.step search).result =
        resultAt depth answer := by
  obtain ⟨_, _, isFailed | classified⟩ := outcome_evaluateAt built sound resumes meaning room ahead
  · have fails : Fails (evaluateAt solver task constraints depth search.step) search .solverFailed _ :=
      ⟨isFailed, rfl⟩
    have answered := (keptBySteps_answersFrom.keepsAt_evaluateAt answersFrom constraints
      (fun _ => nofun) (fun _ => nofun) nofun).of_fails fails
    exact absurd rfl answered.2
  · exact classified

/-- A search at one depth with a correct solver ends as the depth is classified. -/
theorem exists_outcome_evaluateAt (built : task.WellBuilt) (correct : solver.Correct)
    (resumes : search.Resumes task condition) {constraints : List Formula}
    {further : Valuation → Prop}
    (meaning : ∀ v, (∀ f ∈ constraints, f.eval v = true) ↔ further v) {depth : Nat}
    (room : depth < Word.limit) (ahead : search.step ≤ depth) :
    ∃ answer search',
      task.Classifies condition (fun v => further v ∧ task.Reaches depth v) depth answer ∧
      search'.Knows task condition ∧ search'.step = depth ∧
      (evaluateAt solver task constraints depth search.step search).result =
        resultAt depth answer ∧
      (evaluateAt solver task constraints depth search.step search).state = search' := by
  obtain ⟨answer, classifies, result⟩ := exists_classifies_evaluateAt built correct.sound
    (correct.answersFrom _) resumes meaning room ahead
  obtain ⟨knows, here, _⟩ := outcome_evaluateAt built correct.sound resumes meaning room ahead
  exact ⟨answer, _, classifies, knows, here, result, rfl⟩

/-- A search at one depth with a correct solver has an answer if a violation there need not depend on
unknown predicates. -/
theorem exists_runs_evaluateAt (built : task.WellBuilt) (correct : solver.Correct)
    (resumes : search.Resumes task condition) {constraints : List Formula}
    {further : Valuation → Prop}
    (meaning : ∀ v, (∀ f ∈ constraints, f.eval v = true) ↔ further v) {depth : Nat}
    (room : depth < Word.limit) (ahead : search.step ≤ depth)
    (definite : task.Possible condition (fun v => further v ∧ task.Reaches depth v) depth false) :
    ∃ feedback search',
      Runs (evaluateAt solver task constraints depth search.step) search feedback search' := by
  obtain ⟨answer, search', classifies, _, _, result, state⟩ :=
    exists_outcome_evaluateAt built correct resumes meaning room ahead
  cases answer with
  | none => exact ⟨_, search', result, state⟩
  | some feedback =>
      have verdict : feedback.verdict = .definite := classifies.definite_iff.mpr definite
      rw [resultAt, if_neg (by rw [verdict]; exact nofun)] at result
      exact ⟨feedback, search', result, state⟩

end Search

end Trivalent
