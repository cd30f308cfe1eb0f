import Trivalent.Proofs.Search.Resumed

/-!
# Searches that are interrupted

A call of a search ends where a query is not answered.  Until then it has come past no violation, and
its run says what it said before, up to the steps that were taken.  So a call that goes on from there
finds what the interrupted one would have found, under its condition, which is in the run already.
-/

namespace Trivalent

namespace Task

variable {task : Task} {conditions conditions' : List Formula} {first later n : Nat}
  {wildcard : Bool} {feedback : Feedback}

/-- The constant true is no condition. -/
theorem satisfiable_append_true_iff :
    task.Satisfiable (conditions ++ [.constant true]) n wildcard ↔
      task.Satisfiable conditions n wildcard := by
  refine exists_congr fun v => and_congr_left fun _ => ?_
  constructor
  · rintro ⟨unrolls, property, all⟩
    exact ⟨unrolls, property, (List.forall_mem_append.mp all).1⟩
  · rintro ⟨unrolls, property, all⟩
    refine ⟨unrolls, property, List.forall_mem_append.mpr ⟨all, ?_⟩⟩
    exact List.forall_mem_singleton.mpr (Formula.eval_constant v true)

namespace FindsLeast

theorem congr (finds : task.FindsLeast conditions first feedback)
    (same : ∀ n wildcard, task.Satisfiable conditions n wildcard ↔
      task.Satisfiable conditions' n wildcard) :
    task.FindsLeast conditions' first feedback := by
  obtain ⟨none_iff, none, within, possible, least, definite_iff⟩ := finds
  simp only [same] at none_iff possible least definite_iff
  exact ⟨none_iff, none, within, possible, least, definite_iff⟩

/-- What is found from a later depth on is found from an earlier one on, if there is nothing between
them. -/
theorem of_later (finds : task.FindsLeast conditions later feedback) (ahead : first ≤ later)
    (never : ∀ n, first ≤ n → n < later → ¬task.Satisfiable conditions n true) :
    task.FindsLeast conditions first feedback := by
  constructor
  case none_iff =>
    refine finds.none_iff.trans ⟨fun none n after within => ?_, fun none n after => ?_⟩
    · rcases Nat.lt_or_ge n later with before | isLater
      · exact never n after before
      · exact none n isLater within
    · exact none n (Nat.le_trans ahead after)
  case none => exact finds.none
  case within => exact fun found => ⟨Nat.le_trans ahead (finds.within found).1, (finds.within found).2⟩
  case possible => exact finds.possible
  case least =>
    intro found n after before
    rcases Nat.lt_or_ge n later with isEarlier | isLater
    · exact never n after isEarlier
    · exact finds.least found n isLater before
  case definite_iff => exact finds.definite_iff

end FindsLeast

/-- A depth is classified in one way. -/
theorem Classifies.outcome_eq {condition property : Valuation → Prop}
    {answer answer' : Option Feedback} (classifies : task.Classifies condition property n answer)
    (classifies' : task.Classifies condition property n answer') :
    answer.map Feedback.outcome = answer'.map Feedback.outcome := by
  cases answer with
  | none =>
      cases answer' with
      | none => rfl
      | some feedback' => exact absurd (Finds.possible classifies') classifies
  | some feedback =>
      cases answer' with
      | none => exact absurd (Finds.possible classifies) classifies'
      | some feedback' =>
          have definite : feedback.verdict = .definite ↔ feedback'.verdict = .definite :=
            classifies.definite_iff.trans classifies'.definite_iff.symm
          have step : feedback.step = feedback'.step := classifies.step.trans classifies'.step.symm
          exact congrArg some (Prod.ext
            (Verdict.eq_of_definite_iff classifies.found classifies'.found definite) step)

end Task

namespace Search

open Trivalent.Action

/-- A search at one depth tells how the depth is classified, or that it cannot. -/
theorem outcome_resultAt {depth : Nat} {answer answer' : Option Feedback}
    (same : answer.map Feedback.outcome = answer'.map Feedback.outcome) :
    (resultAt depth answer).map Feedback.outcome = (resultAt depth answer').map Feedback.outcome := by
  cases answer with
  | none =>
      cases answer' with
      | none => rfl
      | some feedback' => exact nomatch same
  | some feedback =>
      cases answer' with
      | none => exact nomatch same
      | some feedback' =>
          have sameOutcome : feedback.outcome = feedback'.outcome := Option.some.inj same
          have verdict : feedback.verdict = feedback'.verdict := congrArg Prod.fst sameOutcome
          dsimp only [resultAt]
          rw [verdict]
          split
          · rfl
          · exact congrArg Except.ok sameOutcome

/-- It tells of that depth, or that the system is uncertain there. -/
theorem outcome_resultAt_cases {task : Task} {condition property : Valuation → Prop} {depth : Nat}
    {answer : Option Feedback} (classifies : task.Classifies condition property depth answer) :
    (resultAt depth answer).map Feedback.outcome = .error (.uncertain depth) ∨
      ∃ verdict, (resultAt depth answer).map Feedback.outcome = .ok (verdict, depth) := by
  cases answer with
  | none => exact .inr ⟨.noneFound, rfl⟩
  | some feedback =>
      dsimp only [resultAt]
      split
      · exact .inl rfl
      · exact .inr ⟨feedback.verdict, congrArg Except.ok (Prod.ext rfl classifies.step)⟩

variable {σ : Type} {solver : Sat.Solver σ} {task : Task} {conditions : List Formula}
  {search : Search σ} {beginnings : Nat}

/-! ## Interrupted calls -/

/-- What a search with a solver that may fail regains when a call of it was interrupted: a call that
goes on with a solver that works again tells what the interrupted call would have told with one that
does not fail. -/
structure Regains (solver : Sat.Solver σ) (task : Task) (search : Search σ) : Prop where
  evaluate : ∀ start condition search',
    Fails (evaluate solver task start condition) search .solverFailed search' →
      start ≤ search'.step ∧
      ∀ unfailing again : Sat.Solver σ, unfailing.Sound → unfailing.AnswersFrom search.solver →
        again.Sound → again.AnswersFrom search'.solver →
          ∃ verdict step,
            (Search.evaluate unfailing task start condition search).result.map Feedback.outcome =
              .ok (verdict, step) ∧
            (Search.evaluate again task search'.step (.constant true) search').result.map
              Feedback.outcome = .ok (verdict, step)
  evaluateAt : ∀ constraints depth start error search', depth < Word.limit →
    Fails (evaluateAt solver task constraints depth start) search error search' →
      (∀ fault, error ≠ .fault fault) →
        search'.step = depth ∧
        ∀ unfailing again : Sat.Solver σ, unfailing.Sound → unfailing.AnswersFrom search.solver →
          again.Sound → again.AnswersFrom search'.solver →
            ∃ told, (told = .error (.uncertain depth) ∨ ∃ verdict, told = .ok (verdict, depth)) ∧
              (Search.evaluateAt unfailing task constraints depth start search).result.map
                Feedback.outcome = told ∧
              (Search.evaluateAt again task constraints depth depth search').result.map
                Feedback.outcome = told

/-- Wherever the calls of a search have come to, it regains what an interruption takes. -/
theorem Consists.regains (built : task.WellBuilt) (sound : solver.Sound)
    (room : task.configuration.bound + 1 < Word.limit)
    (consists : search.Consists task beginnings conditions) : search.Regains solver task := by
  constructor
  case evaluate =>
    intro start condition search' fails
    obtain rfl := first_eq_of_solverFailed fails
    have ahead : search.step ≤ (Search.evaluate solver task search.step condition search).state.step :=
      step_le_action (.evaluate search.step condition) search
    have left : ∃ beginnings', beginnings' ≠ 0 ∧
        (Search.evaluate solver task search.step condition search).state.Consists task beginnings'
          (conditions ++ [condition]) := consists.evaluated built condition
    rw [fails.2] at ahead left
    obtain ⟨_, _, consists'⟩ := left
    refine ⟨ahead, fun unfailing again soundUnfailing unfails soundAgain works => ?_⟩
    have never : ∀ n, search.step ≤ n → n < search'.step → ¬task.Possible
        (fun v => (∀ f ∈ conditions, f.eval v = true) ∧ condition.eval v = true) (task.Reaches n) n
          true := by
      rcases fails_evaluate built sound consists.resumes (fun _ => Iff.rfl) fails with
        ⟨_, _, never⟩ | ⟨full, _⟩
      · exact never
      · exact absurd room (Nat.not_lt_of_le full)
    obtain ⟨feedback, _, runs, finds⟩ :=
      consists.resumes.exists_answers built soundUnfailing unfails room condition
    obtain ⟨feedback', _, runs', findsToo⟩ :=
      consists'.resumes.exists_answers built soundAgain works room (.constant true)
    -- The condition of the interrupted call is in the run, and there is nothing up to where it came.
    have regained := (findsToo.congr fun n wildcard => Task.satisfiable_append_true_iff).of_later
      ahead fun n after before =>
        mt (Task.possible_iff_satisfiable built).mpr (never n after before)
    rw [runs.1, runs'.1]
    exact ⟨_, _, rfl, congrArg Except.ok (regained.outcome_eq finds)⟩
  case evaluateAt =>
    intro constraints depth start error search' inside fails notFault
    obtain ⟨rfl, ahead⟩ := goesOn_of_fails fails notFault
    have left : ∃ beginnings', beginnings' ≠ 0 ∧
        (Search.evaluateAt solver task constraints depth search.step search).state.Consists task
          beginnings' conditions := consists.evaluatedAt built constraints ahead inside
    obtain ⟨_, here, _⟩ :=
      outcome_evaluateAt built sound consists.resumes (fun _ => Iff.rfl) inside ahead
    rw [fails.2] at left here
    obtain ⟨_, _, consists'⟩ := left
    refine ⟨here, fun unfailing again soundUnfailing unfails soundAgain works => ?_⟩
    obtain ⟨answer, classifies, result⟩ := exists_classifies_evaluateAt built soundUnfailing unfails
      consists.resumes (fun _ => Iff.rfl) inside ahead
    obtain ⟨answer', classifies', result'⟩ := exists_classifies_evaluateAt built soundAgain works
      consists'.resumes (fun _ => Iff.rfl) inside (Nat.le_of_eq here)
    rw [here] at result'
    rw [result, result']
    exact ⟨_, outcome_resultAt_cases classifies, rfl,
      outcome_resultAt (classifies'.outcome_eq classifies)⟩

end Search

/-- A call that ends because a query is not answered loses nothing, whatever calls came before it and
wherever it is interrupted.  What it has come past holds no violation, and its condition is in the
run; so going on from there with a solver that works again tells the verdict and the depth that the
call would have told with one that does not fail.  A call at one depth has come to its depth when it
ends with an error, and can be asked again from there. -/
theorem Search.regains_of_calls {σ : Type} {solver : Sat.Solver σ} {text : String}
    {system : System} {configuration : Configuration}
    (loaded : ModelFile.load text = .ok system) (fits : system.Fits)
    (validated : (configuration.validate system).2 = .ok ())
    (room : configuration.bound + 1 < Word.limit) (sound : solver.Sound) (start : σ) :
    ∃ task, (Task.build system configuration).2 = .ok task ∧
      ∀ calls : List Search.Call, (∀ call ∈ calls, call.InRange) →
        (Search.after solver task calls (.initial start)).Regains solver task := by
  obtain ⟨task, isBuilt, built⟩ := Task.exists_wellBuilt loaded validated fits
  obtain ⟨_, rfl, _⟩ := Task.build_ok isBuilt
  refine ⟨task, isBuilt, fun calls inRange => ?_⟩
  obtain ⟨_, _, consists, _⟩ :=
    (Search.consists_initial built start).afterAny solver built inRange
  exact consists.regains built sound room

/-- A process that goes to its target after one step, searched with a solver whose second answer is
missing: a search of all depths is interrupted at depth 1, and one of depth 1 alone before it is known
that the violation is definite. -/
theorem Search.regains_of_calls_of_going :
    let text := "\x7b\"predicates\": \x7b\x7d, \"processes\": " ++
      "[[\x7b\"source\": 0, \"destination\": 1\x7d]]\x7d"
    let system : System := ⟨.empty, .empty, [⟨0, [⟨0, 1, .always, []⟩]⟩]⟩
    let configuration : Configuration := ⟨.reachability, 1, [0], .all, 3, false, false⟩
    let solver := Sat.splitting.interruptedAfter (some 1)
    let unfailing := Sat.splitting.interruptedAfter none
    let search : Search (Sat.Interrupted (List Formula)) := .initial ⟨[], 0⟩
    ModelFile.load text = .ok system ∧ system.Fits ∧ (configuration.validate system).2 = .ok () ∧
      configuration.bound + 1 < Word.limit ∧ solver.Sound ∧
        ∃ task, (Task.build system configuration).2 = .ok task ∧
          (∃ search', Action.Fails (Search.evaluate solver task 0 (.constant true)) search
              .solverFailed search' ∧ search'.step = 1 ∧
            (Search.evaluate unfailing task 0 (.constant true) search).result.map Feedback.outcome =
              .ok (.definite, 1) ∧
            (Search.evaluate solver task 1 (.constant true) search').result.map Feedback.outcome =
              .ok (.definite, 1)) ∧
          ∃ search', Action.Fails (Search.evaluateAt solver task [] 1 0) search
              .solverFailed search' ∧ search'.step = 1 ∧
            (Search.evaluateAt unfailing task [] 1 0 search).result.map Feedback.outcome =
              .ok (.definite, 1) ∧
            (Search.evaluateAt solver task [] 1 1 search').result.map Feedback.outcome =
              .ok (.definite, 1) := by
  intro text system configuration solver unfailing search
  have loaded : ModelFile.load text = .ok system := by decide +kernel
  have validated : (configuration.validate system).2 = .ok () := by decide +kernel
  have room : configuration.bound + 1 < Word.limit := by decide
  have fits : system.Fits := by
    intro process member
    obtain rfl := List.mem_singleton.mp member
    decide
  have sound : solver.Sound := Sat.splitting_correct.sound.interruptedAfter (some 1)
  obtain ⟨task, isBuilt, regains⟩ :=
    Search.regains_of_calls loaded fits validated room sound ⟨[], 0⟩
  have kept : search.Regains solver task := regains [] fun _ member => absurd member List.not_mem_nil
  have soundToo : unfailing.Sound := Sat.splitting_correct.sound.interruptedAfter none
  have unfails : unfailing.AnswersFrom search.solver :=
    Sat.splitting_correct.answersFrom_interruptedAfter fun _ => nofun
  have works {search' : Search (Sat.Interrupted (List Formula))} (calls : search'.solver.calls = 2) :
      solver.AnswersFrom search'.solver := by
    refine Sat.splitting_correct.answersFrom_interruptedAfter fun n isAfter => ?_
    obtain rfl := Option.some.inj isAfter
    exact calls ▸ Nat.one_lt_two
  have interrupted : (Task.build system configuration).2.map (fun task =>
      let outcome := Search.evaluate solver task 0 (.constant true) search
      (outcome.result.map Feedback.outcome, outcome.state.step, outcome.state.solver.calls)) =
        .ok (.error .solverFailed, 1, 2) := by
    decide +kernel
  have told : (Task.build system configuration).2.map (fun task =>
      (Search.evaluate unfailing task 0 (.constant true) search).result.map Feedback.outcome) =
        .ok (.ok (.definite, 1)) := by
    decide +kernel
  have interruptedAt : (Task.build system configuration).2.map (fun task =>
      let outcome := Search.evaluateAt solver task [] 1 0 search
      (outcome.result.map Feedback.outcome, outcome.state.step, outcome.state.solver.calls)) =
        .ok (.error .solverFailed, 1, 2) := by
    decide +kernel
  have toldAt : (Task.build system configuration).2.map (fun task =>
      (Search.evaluateAt unfailing task [] 1 0 search).result.map Feedback.outcome) =
        .ok (.ok (.definite, 1)) := by
    decide +kernel
  rw [isBuilt] at interrupted told interruptedAt toldAt
  have failed {result : Except CheckError Feedback}
      (isFailed : result.map Feedback.outcome = .error .solverFailed) :
      result = .error .solverFailed := by
    cases result with
    | error error => exact congrArg Except.error (Except.error.inj isFailed)
    | ok feedback => exact nomatch isFailed
  refine ⟨loaded, fits, validated, room, sound, task, isBuilt, ?_, ?_⟩
  · obtain ⟨isFailed, step, calls⟩ := by simpa only [Prod.mk.injEq] using Except.ok.inj interrupted
    have fails : Action.Fails (Search.evaluate solver task 0 (.constant true)) search .solverFailed _ :=
      ⟨failed isFailed, rfl⟩
    obtain ⟨verdict, depth, unfailingTells, againTells⟩ :=
      (kept.evaluate _ _ _ fails).2 unfailing solver soundToo unfails sound (works calls)
    have same := unfailingTells.symm.trans (Except.ok.inj told)
    rw [step, same] at againTells
    exact ⟨_, fails, step, Except.ok.inj told, againTells⟩
  · obtain ⟨isFailed, step, calls⟩ := by
      simpa only [Prod.mk.injEq] using Except.ok.inj interruptedAt
    have fails : Action.Fails (Search.evaluateAt solver task [] 1 0) search .solverFailed _ :=
      ⟨failed isFailed, rfl⟩
    obtain ⟨tells, _, unfailingTells, againTells⟩ :=
      (kept.evaluateAt _ _ _ _ _ (by decide) fails fun _ => nofun).2 unfailing solver soundToo unfails
        sound (works calls)
    have same := unfailingTells.symm.trans (Except.ok.inj toldAt)
    exact ⟨_, fails, step, Except.ok.inj toldAt, againTells.trans same⟩

end Trivalent
