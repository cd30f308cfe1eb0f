import Trivalent.Proofs.Refinement.Lockstep
import Trivalent.Proofs.Refinement.Termination
import Trivalent.Proofs.Search.Resumed

/-!
# Systems checked by way of themselves

The valuation from which a witness is read is itself on the path of the witness.  So a possible
violation that is followed in its own system is found there again; and it is not definite there, since
it was not definite before.  A refinement of a system by itself therefore has no rounds: it ends with
the answer of the search, or because the system is uncertain.
-/

namespace Trivalent

namespace Refinement

open Trivalent.Action

variable {σ : Type} {solver : Sat.Solver σ} {task : Task} {start startToo : σ} {depth : Nat}
  {feedback : Feedback} {search searchToo : Search σ}

/-! ## Following a path in its own system -/

/-- The first candidate, followed in its own system, is still possible there and no more. -/
theorem Candidate.uncertain {condition : Valuation → Prop} {path : Formula} (built : task.WellBuilt)
    (sound : solver.Sound) (candidate : Candidate task condition depth feedback search)
    (always : ∀ v, condition v) (resumesToo : searchToo.Resumes task fun _ => True)
    (ahead : searchToo.step ≤ feedback.step)
    (isPath : Witness.formula task.system feedback.witness = .ok path) :
    (Search.evaluateAt solver task [path] feedback.step searchToo.step searchToo).result =
        .error .solverFailed ∨
      (Search.evaluateAt solver task [path] feedback.step searchToo.step searchToo).result =
        .error (.uncertain feedback.step) := by
  obtain ⟨u, witnessed, _⟩ := candidate.witnessed
  obtain ⟨path', isPathToo, follows⟩ :=
    Witness.denotes_formula built.fits built.fits witnessed.decoded
  obtain rfl := Except.ok.inj (isPath.symm.trans isPathToo)
  -- The valuation from which the witness was read is on the path.
  have onPath : ∀ f ∈ [path], f.eval u = true :=
    List.forall_mem_singleton.mpr ((follows u).mpr fun _ _ => .refl _ _)
  obtain ⟨_, _, failed | ⟨answer, classifies, result⟩⟩ :=
    Search.outcome_evaluateAt built sound resumesToo (fun _ => Iff.rfl) witnessed.room ahead
  · exact .inl failed
  cases answer with
  | none =>
      exact absurd ⟨u, witnessed.unrolls, trivial, ⟨onPath, witnessed.reaches⟩, witnessed.reads⟩
        classifies
  | some answer =>
      -- A definite violation on the path would have been one before it was followed.
      have indefinite : answer.verdict ≠ .definite := by
        intro definite
        obtain ⟨v, unrolls, _, ⟨_, reaches⟩, reads⟩ := classifies.definite_iff.mp definite
        exact candidate.indefinite ⟨v, unrolls, always v, reaches, reads⟩
      rw [result, Search.resultAt, if_pos (Verdict.eq_possible indefinite classifies.found)]
      exact .inr rfl

/-- So is what the search of the first round finds possible. -/
theorem uncertain_of_searched {path : Formula} (built : task.WellBuilt) (sound : solver.Sound)
    (startToo : σ)
    (searched : Runs (Search.evaluate solver task 0 (.constant true)) (.initial start) feedback search)
    (possible : feedback.verdict = .possible)
    (isPath : Witness.formula task.system feedback.witness = .ok path) :
    (Search.evaluateAt solver task [path] feedback.step 0 (.initial startToo)).result =
        .error .solverFailed ∨
      (Search.evaluateAt solver task [path] feedback.step 0 (.initial startToo)).result =
        .error (.uncertain feedback.step) := by
  have candidate := candidate_of_runs built sound (Search.resumes_initial start) (fun _ => Iff.rfl)
    (Nat.zero_le _) searched possible
  exact candidate.uncertain built sound (fun v => ⟨trivial, Formula.eval_constant v true⟩)
    (Search.resumes_initial startToo) (Nat.zero_le _) isPath

/-- It is not followed to an answer. -/
theorem not_replayed {path : Formula} {answer : Feedback} (built : task.WellBuilt)
    (sound : solver.Sound)
    (searched : Runs (Search.evaluate solver task 0 (.constant true)) (.initial start) feedback search)
    (possible : feedback.verdict = .possible)
    (isPath : Witness.formula task.system feedback.witness = .ok path) :
    ¬Runs (Search.evaluateAt solver task [path] feedback.step 0) (.initial startToo) answer
      searchToo := by
  rintro ⟨replayed, _⟩
  rcases uncertain_of_searched built sound startToo searched possible isPath with failed | failed
  · exact nomatch replayed.symm.trans failed
  · exact nomatch replayed.symm.trans failed

/-! ## No rounds -/

/-- The first round of a refinement of a system by itself is the only one. -/
theorem Begins.eq_first {condition : Formula} {rounds : List Round} {searches : Refinement σ}
    (built : task.WellBuilt) (sound : solver.Sound)
    (begins : Begins solver task task start startToo depth condition rounds searches) :
    depth = 0 ∧ condition = .constant true ∧ rounds = [] ∧
      searches = ⟨.initial start, .initial startToo⟩ := by
  induction begins with
  | first => exact ⟨rfl, rfl, rfl, rfl⟩
  | next _ searched possible isPath replayed _ _ ih =>
      obtain ⟨rfl, rfl, _, rfl⟩ := ih
      exact absurd replayed (not_replayed built sound searched possible isPath)

/-- So a report on it has no rounds. -/
theorem Concludes.rounds_eq_nil {report : Report} {origin : Origin} (built : task.WellBuilt)
    (sound : solver.Sound)
    (concludes : Concludes solver task task start startToo report origin) : report.rounds = [] := by
  cases concludes with
  | settled begun _ _ => exact (begun.eq_first built sound).2.2.1
  | confirmed begun searched possible isPath replayed _ =>
      obtain ⟨rfl, rfl, _, rfl⟩ := begun.eq_first built sound
      exact absurd replayed (not_replayed built sound searched possible isPath)

/-- A refinement of a system by itself ends as the search of the system does, except that it takes no
possible violation for an answer. -/
theorem exists_refine_self (built : task.WellBuilt) (correct : solver.Correct)
    (validated : (task.configuration.validate task.system).2 = .ok ())
    (searched : Runs (Search.evaluate solver task 0 (.constant true)) (.initial start) feedback
      search) :
    ∃ after, EndsWith (refine solver task task) ⟨.initial start, .initial start⟩
      (if feedback.verdict = .possible then .error (.uncertain feedback.step)
      else .ok ⟨feedback, []⟩) after := by
  simp only [endsWith_refine_iff validated]
  by_cases possible : feedback.verdict = .possible
  · rw [if_pos possible]
    have underway : Underway task task (fun _ => True) 0 (.constant true)
      ⟨.initial start, .initial start⟩ [] := underway_initial start _
    obtain ⟨u, witnessed, _⟩ :=
      (underway.candidate built correct.sound searched possible).witnessed
    rcases runs_or_fails (replay solver task feedback 0) ⟨search, .initial start⟩ with
      ⟨answer, replayed⟩ | ⟨error, failed⟩
    · obtain ⟨_, _, isPath, replayed, _⟩ := runs_replay_iff.mp replayed
      exact absurd replayed (not_replayed built correct.sound searched possible isPath)
    · obtain rfl := uncertain_of_fails_replay built.fits built correct witnessed
        (Search.resumes_initial start) (Nat.zero_le _) failed
      exact ⟨_, .stopped searched possible failed⟩
  · rw [if_neg possible]
    exact ⟨_, .settled searched possible⟩

end Refinement

/-- A check of a system by way of itself tells what a check of the system alone tells: the same verdict
at the same depth, without rounds.  Only if that is a possible violation it ends because the system is
uncertain at its depth.  It never begins a second round, so no path is ever excluded. -/
theorem check_itself {σ τ : Type} {solver : Sat.Solver σ} {solverToo : Sat.Solver τ} {text : String}
    {system : System} {configuration : Configuration}
    (loaded : ModelFile.load text = .ok system)
    (validated : (configuration.validate system).2 = .ok ()) (correct : solver.Correct)
    (correctToo : solverToo.Correct) (start : σ) (startToo : τ) :
    (∀ events report,
      check solver start system none configuration = some (.ok (events, .ok report)) →
      (report.feedback.verdict ≠ .possible → ∃ eventsToo reportToo,
        check solverToo startToo system (some system) configuration =
            some (.ok (eventsToo, .ok reportToo)) ∧
          reportToo.feedback.verdict = report.feedback.verdict ∧
          reportToo.feedback.step = report.feedback.step ∧ reportToo.rounds = []) ∧
      (report.feedback.verdict = .possible → ∃ eventsToo,
        check solverToo startToo system (some system) configuration =
          some (.ok (eventsToo, .error (.uncertain report.feedback.step))))) ∧
    (∀ task, (Task.build system configuration).2 = .ok task →
      ∀ depth condition rounds searches,
        Refinement.Begins solverToo task task startToo startToo depth condition rounds searches →
          rounds = []) ∧
    ∀ events report,
      check solverToo startToo system (some system) configuration =
        some (.ok (events, .ok report)) → report.rounds = [] := by
  refine ⟨fun events report checked => ?_, ?_, ?_⟩
  · obtain ⟨task, isTask, alone⟩ := exists_check_alone_iff.mp ⟨events, checked⟩
    have built := Task.wellBuilt_of_loaded loaded validated isTask
    obtain ⟨rfl, rfl, _⟩ := Task.build_ok isTask
    obtain ⟨feedback, search, searched, isReport⟩ := Action.runs_bind_iff.mp ⟨alone, rfl⟩
    obtain rfl := (Action.runs_pure_iff.mp isReport).1
    obtain ⟨feedbackToo, searchToo, searchedToo, same⟩ :=
      (Search.resumes_fresh start).exists_runs_of_runs built correct.sound correctToo.sound
        (correctToo.answersFrom _) (Search.resumes_fresh startToo) rfl searched
    obtain ⟨verdict, step⟩ := Prod.mk.inj same
    obtain ⟨after, ends⟩ := Refinement.exists_refine_self built correctToo validated searchedToo
    rw [verdict, step] at ends
    obtain ⟨eventsToo, checkedToo⟩ :=
      exists_check_result_iff.mpr ⟨task, task, after, isTask, isTask, ends⟩
    constructor
    · intro certain
      rw [if_neg certain] at checkedToo
      exact ⟨eventsToo, _, checkedToo, verdict, step, rfl⟩
    · intro possible
      rw [if_pos possible] at checkedToo
      exact ⟨eventsToo, checkedToo⟩
  · intro task isTask depth condition rounds searches begins
    have built := Task.wellBuilt_of_loaded loaded validated isTask
    exact (begins.eq_first built correctToo.sound).2.2.1
  · intro events report checked
    obtain ⟨task, task', searches, isTask, isTaskToo, ends⟩ :=
      exists_check_result_iff.mp ⟨events, checked⟩
    obtain rfl : task = task' := Except.ok.inj (isTask.symm.trans isTaskToo)
    have built := Task.wellBuilt_of_loaded loaded validated isTask
    obtain ⟨_, concludes⟩ := Refinement.exists_concludes_of_refine ends
    exact concludes.rounds_eq_nil built correctToo.sound

/-- A process that goes to location 2, or to location 1 if an unknown condition holds: that it meets the
first is definite, and that it meets the second is uncertain. -/
theorem check_itself_of_choosing :
    let text := "\x7b\"predicates\": \x7b\x7d, \"processes\": [[\x7b\"source\": 0, " ++
      "\"destination\": 1, \"guard\": \"choice(false, false)\"\x7d, " ++
        "\x7b\"source\": 0, \"destination\": 2\x7d]]\x7d"
    let system : System := ⟨.empty, .empty,
      [⟨0, [⟨0, 1, .choice (.literal false) (.literal false), []⟩, ⟨0, 2, .always, []⟩]⟩]⟩
    let configuration (target : Nat) : Configuration :=
      ⟨.reachability, target, [0], .all, 3, false, false⟩
    ModelFile.load text = .ok system ∧ (∀ l, ((configuration l).validate system).2 = .ok ()) ∧
      Sat.splitting.Correct ∧
      (∃ events report,
        check Sat.splitting [] system none (configuration 2) = some (.ok (events, .ok report)) ∧
          report.feedback.verdict = .definite ∧ report.feedback.step = 1 ∧
            ∃ eventsToo reportToo, check Sat.splitting [] system (some system) (configuration 2) =
                some (.ok (eventsToo, .ok reportToo)) ∧
              reportToo.feedback.verdict = .definite ∧ reportToo.feedback.step = 1 ∧
                reportToo.rounds = []) ∧
      ∃ events report,
        check Sat.splitting [] system none (configuration 1) = some (.ok (events, .ok report)) ∧
          report.feedback.verdict = .possible ∧ report.feedback.step = 1 ∧
            ∃ eventsToo, check Sat.splitting [] system (some system) (configuration 1) =
              some (.ok (eventsToo, .error (.uncertain 1))) := by
  intro text system configuration
  have loaded : ModelFile.load text = .ok system := by decide +kernel
  have validated (l : Nat) : ((configuration l).validate system).2 = .ok () := rfl
  have correct := Sat.splitting_correct
  have told (l : Nat) (verdict : Verdict)
      (tells : Option.map (Except.map fun checked => checked.2.map fun report =>
        report.feedback.outcome) (check Sat.splitting [] system none (configuration l)) =
          some (.ok (.ok (verdict, 1)))) : ∃ events report,
      check Sat.splitting [] system none (configuration l) = some (.ok (events, .ok report)) ∧
        report.feedback.verdict = verdict ∧ report.feedback.step = 1 := by
    match checked : check Sat.splitting [] system none (configuration l) with
    | none | some (.error _) | some (.ok (_, .error _)) =>
        rw [checked] at tells
        exact nomatch tells
    | some (.ok (events, .ok report)) =>
        rw [checked] at tells
        obtain ⟨isVerdict, isStep⟩ :=
          Prod.mk.inj (Except.ok.inj (Except.ok.inj (Option.some.inj tells)))
        exact ⟨events, report, rfl, isVerdict, isStep⟩
  have agrees (l : Nat) :=
    (check_itself loaded (validated l) correct correct ([] : List Formula) ([] : List Formula)).1
  obtain ⟨events, report, checked, verdict, step⟩ := told 2 .definite (by decide +kernel)
  obtain ⟨eventsToo, reportToo, checkedToo, verdictToo, stepToo, rounds⟩ :=
    (agrees 2 events report checked).1 (by rw [verdict]; exact nofun)
  obtain ⟨events', report', checked', verdict', step'⟩ := told 1 .possible (by decide +kernel)
  obtain ⟨eventsToo', uncertain⟩ := (agrees 1 events' report' checked').2 verdict'
  rw [step'] at uncertain
  exact ⟨loaded, validated, correct,
    ⟨events, report, checked, verdict, step, eventsToo, reportToo, checkedToo,
      verdictToo.trans verdict, stepToo.trans step, rounds⟩,
    events', report', checked', verdict', step', eventsToo', uncertain⟩

end Trivalent
