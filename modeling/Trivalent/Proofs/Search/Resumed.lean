import Trivalent.Proofs.Search.Called
import Trivalent.Proofs.System.Equality

/-!
# Searches that are resumed

A search goes on where its calls have come to, with the conditions that they have put on it.  So each
call over all depths finds the least depth from there on at which a violation satisfies all of them,
and each call at one depth tells whether one does there that satisfies its constraints too.
-/

namespace Trivalent

/-- What feedback tells but for the path: how the violation is classified, and at which depth. -/
def Feedback.outcome (feedback : Feedback) : Verdict × Nat :=
  (feedback.verdict, feedback.step)

/-- Two ways to classify a violation are the same if they agree on whether it is definite. -/
theorem Verdict.eq_of_definite_iff {verdict verdict' : Verdict} (found : verdict ≠ .noneFound)
    (found' : verdict' ≠ .noneFound) (same : verdict = .definite ↔ verdict' = .definite) :
    verdict = verdict' := by
  cases verdict <;> cases verdict' <;> simp_all

namespace Task

variable {task : Task} {conditions : List Formula} {first : Nat} {feedback : Feedback}

/-- The feedback on a search of the depths from `first` up to the bound, under some conditions: the
least depth at which they can be satisfied with unknown predicates read as either value, definite if
they can also be satisfied there with unknown predicates read as neither. -/
structure FindsLeast (task : Task) (conditions : List Formula) (first : Nat)
    (feedback : Feedback) : Prop where
  none_iff : feedback = .noneUpTo task.configuration.bound ↔
    ∀ n, first ≤ n → n ≤ task.configuration.bound → ¬task.Satisfiable conditions n true
  none : feedback.verdict = .noneFound → feedback = .noneUpTo task.configuration.bound
  within : feedback.verdict ≠ .noneFound →
    first ≤ feedback.step ∧ feedback.step ≤ task.configuration.bound
  possible : feedback.verdict ≠ .noneFound → task.Satisfiable conditions feedback.step true
  least : feedback.verdict ≠ .noneFound →
    ∀ n, first ≤ n → n < feedback.step → ¬task.Satisfiable conditions n true
  definite_iff : feedback.verdict ≠ .noneFound →
    (feedback.verdict = .definite ↔ task.Satisfiable conditions feedback.step false)

/-- There is one least depth, and one way to classify it. -/
theorem FindsLeast.outcome_eq {feedback' : Feedback} (finds : task.FindsLeast conditions first feedback)
    (finds' : task.FindsLeast conditions first feedback') : feedback.outcome = feedback'.outcome := by
  by_cases none : feedback.verdict = .noneFound
  · have isNone := finds.none none
    have isNone' := finds'.none_iff.mpr (finds.none_iff.mp isNone)
    rw [isNone, isNone']
  · have found' : feedback'.verdict ≠ .noneFound := fun none' => none <| by
      rw [finds.none_iff.mpr (finds'.none_iff.mp (finds'.none none'))]
      rfl
    have step : feedback.step = feedback'.step := by
      rcases Nat.lt_trichotomy feedback.step feedback'.step with before | same | after
      · exact absurd (finds.possible none) (finds'.least found' _ (finds.within none).1 before)
      · exact same
      · exact absurd (finds'.possible found') (finds.least none _ (finds'.within found').1 after)
    have definite : feedback.verdict = .definite ↔ feedback'.verdict = .definite := by
      rw [finds.definite_iff none, finds'.definite_iff found', step]
    exact Prod.ext (Verdict.eq_of_definite_iff none found' definite) step

/-- What a search answers is the least depth at which its conditions can be satisfied. -/
theorem Answers.findsLeast (built : task.WellBuilt) {condition : Formula}
    (answers : task.Answers
      (fun v => (∀ f ∈ conditions, f.eval v = true) ∧ condition.eval v = true) first feedback) :
    task.FindsLeast (conditions ++ [condition]) first feedback := by
  cases answers with
  | exhausted none never =>
      obtain rfl := none
      simp only [possible_iff_satisfiable built] at never
      constructor
      case none_iff => exact ⟨fun _ => never, fun _ => rfl⟩
      case none => exact fun _ => rfl
      all_goals exact fun found => absurd rfl found
  | found n after within least finds =>
      simp only [possible_iff_satisfiable built] at least
      have definite := finds.definite_iff
      rw [possible_iff_satisfiable built] at definite
      have possible : task.Satisfiable (conditions ++ [condition]) n true :=
        (possible_iff_satisfiable built).mp finds.possible
      obtain rfl := finds.step
      constructor
      case none_iff =>
        constructor
        · intro none
          exact absurd (congrArg Feedback.verdict none) finds.found
        · exact fun never => absurd possible (never _ after within)
      case none => exact fun none => absurd none finds.found
      case within => exact fun _ => ⟨after, within⟩
      case possible => exact fun _ => possible
      case least => exact fun _ => least
      case definite_iff => exact fun _ => definite

end Task

namespace Search

open Trivalent.Action

variable {σ : Type} {solver : Sat.Solver σ} {task : Task} {conditions : List Formula}
  {search : Search σ}

/-- A search goes on from wherever it has come to, also from behind its bound. -/
theorem Resumes.findsLeast (built : task.WellBuilt) (sound : solver.Sound)
    (resumes : search.Resumes task fun v => ∀ f ∈ conditions, f.eval v = true)
    {condition : Formula} {feedback : Feedback} {search' : Search σ}
    (runs : Runs (evaluate solver task search.step condition) search feedback search') :
    task.FindsLeast (conditions ++ [condition]) search.step feedback := by
  rcases Nat.le_total search.step (task.configuration.bound + 1) with within | behind
  · obtain ⟨answers, _⟩ := runs_evaluate built sound resumes (fun _ => Iff.rfl) within runs
    exact answers.findsLeast built
  · obtain ⟨rfl, _⟩ := runs_evaluate_behind resumes behind runs
    have exhausted : task.Answers
        (fun v => (∀ f ∈ conditions, f.eval v = true) ∧ condition.eval v = true) search.step
        (.noneUpTo task.configuration.bound) :=
      .exhausted rfl fun n after within =>
        absurd (Nat.le_trans behind after) (Nat.not_le_of_lt (Nat.lt_succ_of_le within))
    exact exhausted.findsLeast built

/-- It has an answer if its solver answers. -/
theorem Resumes.exists_answers (built : task.WellBuilt) (sound : solver.Sound)
    (answersFrom : solver.AnswersFrom search.solver)
    (room : task.configuration.bound + 1 < Word.limit)
    (resumes : search.Resumes task fun v => ∀ f ∈ conditions, f.eval v = true)
    (condition : Formula) :
    ∃ feedback search', Runs (evaluate solver task search.step condition) search feedback search' ∧
      task.FindsLeast (conditions ++ [condition]) search.step feedback := by
  obtain ⟨feedback, search', runs⟩ := exists_runs_evaluate_of_answersFrom built sound answersFrom
    resumes (fun _ => Iff.rfl) (.inl room)
  exact ⟨feedback, search', runs, resumes.findsLeast built sound runs⟩

/-- Where a search of all depths has an answer, one that goes on from the same depth under the same
conditions has one too if its solver answers, and both tell the same. -/
theorem Resumes.exists_runs_of_runs {τ : Type} {solverToo : Sat.Solver τ} {searchToo : Search τ}
    (built : task.WellBuilt) (sound : solver.Sound) (soundToo : solverToo.Sound)
    (answersFrom : solverToo.AnswersFrom searchToo.solver)
    (resumes : search.Resumes task fun v => ∀ f ∈ conditions, f.eval v = true)
    (resumesToo : searchToo.Resumes task fun v => ∀ f ∈ conditions, f.eval v = true)
    (same : searchToo.step = search.step) {condition : Formula} {feedback : Feedback}
    {search' : Search σ}
    (runs : Runs (evaluate solver task search.step condition) search feedback search') :
    ∃ feedbackToo searchToo',
      Runs (evaluate solverToo task searchToo.step condition) searchToo feedbackToo searchToo' ∧
        feedbackToo.outcome = feedback.outcome := by
  -- The first search tells that the second one ends: it came past the bound, or found a violation.
  have ends : task.configuration.bound + 1 < Word.limit ∨
      ∃ n, search.step ≤ n ∧ n < Word.limit ∧ task.Possible
        (fun v => (∀ f ∈ conditions, f.eval v = true) ∧ condition.eval v = true) (task.Reaches n) n
          true := by
    rcases Nat.le_total search.step (task.configuration.bound + 1) with within | behind
    · obtain ⟨answers, knows, here⟩ :=
        runs_evaluate built sound resumes (fun _ => Iff.rfl) within runs
      have room := knows.room
      rw [here] at room
      cases answers with
      | exhausted none _ =>
          rw [none, Feedback.depth_noneUpTo] at room
          exact .inl room
      | found n after _ _ finds =>
          rw [Feedback.depth_of_found finds.found, finds.step] at room
          exact .inr ⟨n, after, room, finds.possible⟩
    · exact .inl (Nat.lt_of_le_of_lt behind resumes.room)
  rw [← same] at ends
  obtain ⟨feedbackToo, searchToo', runsToo⟩ :=
    exists_runs_evaluate_of_answersFrom built soundToo answersFrom resumesToo (fun _ => Iff.rfl) ends
  have finds := resumesToo.findsLeast built soundToo runsToo
  rw [same] at finds
  exact ⟨feedbackToo, searchToo', runsToo,
    finds.outcome_eq (resumes.findsLeast built sound runs)⟩

/-- What a search that was called under some conditions does when it is called again. -/
structure GoesOn (solver : Sat.Solver σ) (task : Task) (conditions : List Formula)
    (search : Search σ) : Prop where
  ahead : ∀ call : Call, search.step ≤ (call.action solver task search).state.step
  finds : ∀ condition, ∃ feedback search',
    Runs (evaluate solver task search.step condition) search feedback search' ∧
      task.FindsLeast (conditions ++ [condition]) search.step feedback
  none : ∀ constraints depth, search.step ≤ depth → depth < Word.limit →
    ¬task.Satisfiable (conditions ++ constraints) depth true →
      (evaluateAt solver task constraints depth search.step search).result = .ok (.noneUpTo depth)
  uncertain : ∀ constraints depth, search.step ≤ depth → depth < Word.limit →
    task.Satisfiable (conditions ++ constraints) depth true →
      ¬task.Satisfiable (conditions ++ constraints) depth false →
        (evaluateAt solver task constraints depth search.step search).result =
          .error (.uncertain depth)
  definite : ∀ constraints depth, search.step ≤ depth → depth < Word.limit →
    task.Satisfiable (conditions ++ constraints) depth true →
      task.Satisfiable (conditions ++ constraints) depth false →
        ∃ feedback,
          (evaluateAt solver task constraints depth search.step search).result = .ok feedback ∧
            feedback.verdict = .definite ∧ feedback.step = depth

theorem Resumes.goesOn (built : task.WellBuilt) (correct : solver.Correct)
    (room : task.configuration.bound + 1 < Word.limit)
    (resumes : search.Resumes task fun v => ∀ f ∈ conditions, f.eval v = true) :
    search.GoesOn solver task conditions := by
  have outcome (constraints : List Formula) (depth : Nat) (ahead : search.step ≤ depth)
      (inside : depth < Word.limit) : ∃ answer,
      (evaluateAt solver task constraints depth search.step search).result =
        resultAt depth answer ∧
      answer.elim (¬task.Satisfiable (conditions ++ constraints) depth true) fun feedback =>
        feedback.step = depth ∧ feedback.verdict ≠ .noneFound ∧
          task.Satisfiable (conditions ++ constraints) depth true ∧
            (feedback.verdict = .definite ↔
              task.Satisfiable (conditions ++ constraints) depth false) := by
    have meaning (v : Valuation) : (∀ f ∈ constraints, f.eval v = true) ↔
      ∀ f ∈ constraints, f.eval v = true := Iff.rfl
    obtain ⟨answer, _, classifies, _, _, result, _⟩ :=
      exists_outcome_evaluateAt built correct resumes meaning inside ahead
    refine ⟨answer, result, ?_⟩
    cases answer with
    | none => exact fun possible => classifies ((Task.possibleAt_iff_satisfiable built).mpr possible)
    | some feedback =>
        exact ⟨classifies.step, classifies.found,
          (Task.possibleAt_iff_satisfiable built).mp (Task.Finds.possible classifies),
          classifies.definite_iff.trans (Task.possibleAt_iff_satisfiable built)⟩
  constructor
  case ahead => exact fun call => step_le_action call search
  case finds => exact resumes.exists_answers built correct.sound (correct.answersFrom _) room
  case none =>
    intro constraints depth ahead inside impossible
    obtain ⟨_ | feedback, result, answers⟩ := outcome constraints depth ahead inside
    · exact result
    · exact absurd answers.2.2.1 impossible
  case uncertain =>
    intro constraints depth ahead inside possible indefinite
    obtain ⟨_ | feedback, result, answers⟩ := outcome constraints depth ahead inside
    · exact absurd possible answers
    · obtain ⟨_, found, _, definite_iff⟩ := answers
      have isPossible := Verdict.eq_possible (mt definite_iff.mp indefinite) found
      rw [result, resultAt, if_pos isPossible]
  case definite =>
    intro constraints depth ahead inside possible isDefinite
    obtain ⟨_ | feedback, result, answers⟩ := outcome constraints depth ahead inside
    · exact absurd possible answers
    · obtain ⟨step, _, _, definite_iff⟩ := answers
      have verdict := definite_iff.mpr isDefinite
      rw [resultAt, if_neg (by rw [verdict]; decide)] at result
      exact ⟨feedback, result, verdict, step⟩

end Search

/-- A search that is called again and again, each time where it has come to, keeps to its conditions.
Its formulas are the initial one, those of the steps up to where it has come, and the conditions that
it was called with; constraints at a single depth leave nothing behind.  So it goes on with all of
them, and with nothing else. -/
theorem Search.goesOn_of_calls {σ : Type} {solver : Sat.Solver σ} {text : String}
    {system : System} {configuration : Configuration}
    (loaded : ModelFile.load text = .ok system) (fits : system.Fits)
    (validated : (configuration.validate system).2 = .ok ())
    (room : configuration.bound + 1 < Word.limit) (correct : solver.Correct) (start : σ) :
    ∃ task, (Task.build system configuration).2 = .ok task ∧
      ∀ calls, Search.AllGoOn solver task calls (.initial start) →
        let search := Search.after solver task calls (.initial start)
        let conditions := calls.flatMap Search.Call.lasting
        (calls ≠ [] →
          (∃ beginnings, beginnings ≠ 0 ∧ search.Consists task beginnings conditions) ∧
            ∀ v, (∀ f ∈ search.run, f.eval v = true) ↔
              task.Unrolls search.step v ∧ ∀ f ∈ conditions, f.eval v = true) ∧
        search.GoesOn solver task conditions := by
  obtain ⟨task, isBuilt, built⟩ := Task.exists_wellBuilt loaded validated fits
  obtain ⟨_, rfl, _⟩ := Task.build_ok isBuilt
  refine ⟨task, isBuilt, fun calls goOn => ?_⟩
  intro search conditions
  obtain ⟨beginnings, begun, consists⟩ := (Search.consists_initial built start).afterCalls built goOn
  rw [List.nil_append] at consists
  constructor
  · intro some
    have isBegun := begun (.inr some)
    exact ⟨⟨beginnings, isBegun, consists⟩, (consists.knows isBegun).run_iff⟩
  · exact consists.resumes.goesOn built correct room

/-- A search of one depth alone, and then of all depths from there on. -/
theorem Search.goesOn_of_calls_of_going :
    let text := "\x7b\"predicates\": \x7b\x7d, \"processes\": " ++
      "[[\x7b\"source\": 0, \"destination\": 1\x7d]]\x7d"
    let system : System := ⟨.empty, .empty, [⟨0, [⟨0, 1, .always, []⟩]⟩]⟩
    let configuration : Configuration := ⟨.reachability, 1, [0], .all, 3, false, false⟩
    let calls : List Search.Call := [.evaluateAt [] 1 0, .evaluate 1 (.constant true)]
    ModelFile.load text = .ok system ∧ system.Fits ∧ (configuration.validate system).2 = .ok () ∧
      configuration.bound + 1 < Word.limit ∧ Sat.splitting.Correct ∧
        ∃ task, (Task.build system configuration).2 = .ok task ∧
          Search.AllGoOn Sat.splitting task calls (.initial []) ∧
            (Search.after Sat.splitting task calls (.initial [])).GoesOn Sat.splitting task
              [.constant true] := by
  intro text system configuration calls
  have loaded : ModelFile.load text = .ok system := by decide +kernel
  have validated : (configuration.validate system).2 = .ok () := by decide +kernel
  have room : configuration.bound + 1 < Word.limit := by decide
  have correct := Sat.splitting_correct
  have fits : system.Fits := by
    intro process member
    obtain rfl := List.mem_singleton.mp member
    decide
  obtain ⟨task, isBuilt, goesOn⟩ :=
    Search.goesOn_of_calls loaded fits validated room correct []
  have built := Task.wellBuilt_of_loaded loaded validated isBuilt
  have meaning (v : Valuation) : (∀ f ∈ ([] : List Formula), f.eval v = true) ↔ True := by simp
  obtain ⟨_, _, _, _, reached, _, rfl⟩ := Search.exists_outcome_evaluateAt built correct
    (Search.resumes_fresh []) meaning (by decide : 1 < Word.limit) (Nat.zero_le 1)
  have goOn : Search.AllGoOn Sat.splitting task calls (.initial []) :=
    ⟨⟨rfl, Nat.zero_le 1, by decide⟩, reached.symm, trivial⟩
  exact ⟨loaded, fits, validated, room, correct, task, isBuilt, goOn, (goesOn calls goOn).2⟩

end Trivalent
