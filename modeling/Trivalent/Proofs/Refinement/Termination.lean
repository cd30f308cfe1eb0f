import Mathlib.Algebra.Order.BigOperators.Group.Finset
import Trivalent.Proofs.Refinement.Certain
import Trivalent.Proofs.Refinement.Rounds

/-!
# Refinements end

Nothing counts the rounds of a refinement.  But with a correct solver no violation repeats an earlier
one, so there are no more rounds than paths within the bound, and a refinement that goes on comes to
an end: with a report, or because the concrete system is uncertain.
-/

namespace Trivalent

namespace Refinement

open Trivalent.Action

variable {σ : Type} {solver : Sat.Solver σ} {abstract concrete : Task}
  {condition : Valuation → Prop} {depth : Nat} {f : Formula} {searches : Refinement σ}
  {earlier found : List Feedback} {feedback : Feedback} {search : Search σ}
  {ending : Except CheckError Feedback} {stage : Stage}

/-! ## The rounds -/

/-- With a candidate the rounds so far follow different paths within the bound. -/
theorem Underway.rounds_append (built : abstract.WellBuilt)
    (underway : Underway abstract concrete condition depth f searches earlier)
    (candidate : Candidate abstract (fun v => condition v ∧ f.eval v = true) depth feedback search) :
    ((earlier ++ [feedback]).Pairwise fun e later => ¬e.Repeats later) ∧
      ∀ e ∈ earlier ++ [feedback], e.step ≤ abstract.configuration.bound ∧
        ∃ u, abstract.IsWitnessed e u := by
  refine ⟨underway.distinct_append built candidate, fun e member => ?_⟩
  obtain ⟨before, witnessed⟩ := underway.witnessed_append candidate e member
  exact ⟨Nat.le_trans before candidate.inside, witnessed⟩

/-- No round follows a path of an earlier one, and every round follows one within the bound. -/
theorem Rounds.distinct (goesOn : Rounds solver abstract concrete depth f searches found ending)
    (builtAbstract : abstract.WellBuilt) (builtConcrete : concrete.WellBuilt) (sound : solver.Sound)
    (underway : Underway abstract concrete condition depth f searches earlier) :
    ((earlier ++ found).Pairwise fun e later => ¬e.Repeats later) ∧
      ∀ e ∈ earlier ++ found, e.step ≤ abstract.configuration.bound ∧
        ∃ u, abstract.IsWitnessed e u := by
  induction goesOn generalizing condition earlier with
  | settled _ _ =>
      rw [List.append_nil]
      exact ⟨underway.distinct, fun e member =>
        ⟨Nat.le_trans (underway.notAfter e member) underway.within, underway.witnessed e member⟩⟩
  | confirmed searched possible _ _ | stopped searched possible _ =>
      obtain ⟨search, evaluated, _⟩ := runs_onAbstract_iff.mp searched
      exact underway.rounds_append builtAbstract
        (underway.candidate builtAbstract sound evaluated possible)
  | refuted searched possible replayed _ isExclusion _ ih =>
      obtain ⟨search, evaluated, rfl⟩ := runs_onAbstract_iff.mp searched
      have candidate := underway.candidate builtAbstract sound evaluated possible
      rw [List.append_cons]
      exact ih (underway.next builtAbstract builtConcrete sound candidate replayed isExclusion)

/-- So there are no more rounds than paths within the bound. -/
theorem length_le_sum_states (built : abstract.WellBuilt)
    (witnessed : ∀ e ∈ found, e.step ≤ abstract.configuration.bound ∧ ∃ u, abstract.IsWitnessed e u)
    (distinct : found.Pairwise fun e later => ¬e.Repeats later) :
    found.length ≤ ∑ k ∈ Finset.range (abstract.configuration.bound + 1),
      Nat.pow abstract.system.states (k + 1) := by
  have inside : ∀ n ∈ (found.map Feedback.step : Multiset Nat),
      n ∈ Finset.range (abstract.configuration.bound + 1) := by
    intro n member
    obtain ⟨e, listed, rfl⟩ := List.mem_map.mp (Multiset.mem_coe.mp member)
    exact Finset.mem_range.mpr (Nat.lt_succ_of_le (witnessed e listed).1)
  have counted (n : Nat) :
      Multiset.count n (found.map Feedback.step) ≤ Nat.pow abstract.system.states (n + 1) := by
    rw [Multiset.coe_count, List.count, List.countP_map]
    exact countP_le_states built (fun e member => (witnessed e member).2) distinct n
  calc
    found.length = (found.map Feedback.step).length := (List.length_map _).symm
    _ = ∑ n ∈ Finset.range (abstract.configuration.bound + 1),
        Multiset.count n (found.map Feedback.step) := (Multiset.sum_count_eq_card inside).symm
    _ ≤ ∑ n ∈ Finset.range (abstract.configuration.bound + 1),
        Nat.pow abstract.system.states (n + 1) := Finset.sum_le_sum fun n _ => counted n

/-- A refinement on its way has taken no more rounds than there are paths within the bound. -/
theorem Underway.length_le (built : abstract.WellBuilt)
    (underway : Underway abstract concrete condition depth f searches earlier) :
    earlier.length ≤ ∑ k ∈ Finset.range (abstract.configuration.bound + 1),
      Nat.pow abstract.system.states (k + 1) :=
  length_le_sum_states built (fun e member =>
    ⟨Nat.le_trans (underway.notAfter e member) underway.within, underway.witnessed e member⟩)
    underway.distinct

/-! ## The end -/

/-- A refinement on its way ends with its next round, or is on its way behind it. -/
theorem Underway.ends_or_next (builtAbstract : abstract.WellBuilt)
    (builtConcrete : concrete.WellBuilt) (correct : solver.Correct)
    (room : abstract.configuration.bound + 1 < Word.limit)
    (underway : Underway abstract concrete condition stage.depth stage.condition searches earlier) :
    (∃ found ending result after,
      Rounds solver abstract concrete stage.depth stage.condition searches found ending ∧
        Refines solver abstract concrete stage searches result after ∧
          Reports (stage.rounds.map Round.step ++ found.map Feedback.step) ending result) ∨
      ∃ feedback, ∃ next : Stage, ∃ between,
        Underway abstract concrete (fun v => condition v ∧ stage.condition.eval v = true) next.depth
          next.condition between (earlier ++ [feedback]) ∧
        next.rounds.map Round.step = stage.rounds.map Round.step ++ [feedback.step] ∧
        (∀ found ending,
          Rounds solver abstract concrete next.depth next.condition between found ending →
            Rounds solver abstract concrete stage.depth stage.condition searches (feedback :: found)
              ending) ∧
        ∀ result after, Refines solver abstract concrete next between result after →
          Refines solver abstract concrete stage searches result after := by
  obtain ⟨feedback, search, evaluated⟩ := Search.exists_runs_evaluate builtAbstract correct room
    underway.resumes (f := stage.condition) fun _ => Iff.rfl
  rw [underway.here] at evaluated
  have searched : Runs (onAbstract (Search.evaluate solver abstract stage.depth stage.condition))
      searches feedback ⟨search, searches.concrete⟩ :=
    runs_onAbstract_iff.mpr ⟨search, evaluated, rfl⟩
  by_cases certain : feedback.verdict ≠ .possible
  · refine .inl ⟨[], _, _, _, .settled searched certain, .settled evaluated certain, ?_⟩
    rw [List.map_nil, List.append_nil]
    exact .answer ⟨feedback, stage.rounds⟩ rfl
  have possible := not_not.mp certain
  have candidate := underway.candidate builtAbstract correct.sound evaluated possible
  have replays := runs_or_fails (replay solver concrete feedback stage.depth)
    ⟨search, searches.concrete⟩
  generalize Outcome.state _ = between at replays
  rcases replays with ⟨answer, replayed⟩ | ⟨error, failed⟩
  · by_cases definite : answer.verdict = .definite
    · refine .inl ⟨[feedback], _, _, _, .confirmed searched possible replayed definite,
        .confirmed evaluated possible replayed definite, ?_⟩
      exact .answer ⟨answer, stage.rounds ++ [⟨feedback.step, answer.verdict⟩]⟩ List.map_append
    · obtain ⟨u, witnessed, _⟩ := candidate.witnessed
      obtain ⟨exclusion, isExclusion, _⟩ := Witness.denotes_formula builtAbstract.fits
        builtAbstract.fits witnessed.decoded
      refine .inr ⟨feedback, ⟨feedback.step, exclusion.neg,
        stage.rounds ++ [⟨feedback.step, answer.verdict⟩]⟩, between, ?_, List.map_append, ?_, ?_⟩
      · exact underway.next builtAbstract builtConcrete correct.sound candidate replayed isExclusion
      · exact fun found ending => .refuted searched possible replayed definite isExclusion
      · exact fun result after => .refuted evaluated possible replayed definite isExclusion
  · exact .inl ⟨[feedback], _, _, _, .stopped searched possible failed,
      .stopped evaluated possible failed, .error error⟩

/-- With a correct solver a refinement on its way comes to an end.  The induction is on the number of
paths that are left: every round behind which it goes on takes one of them. -/
theorem exists_rounds (builtAbstract : abstract.WellBuilt) (builtConcrete : concrete.WellBuilt)
    (correct : solver.Correct) (room : abstract.configuration.bound + 1 < Word.limit)
    (underway : Underway abstract concrete condition stage.depth stage.condition searches earlier) :
    ∃ found ending result after,
      Rounds solver abstract concrete stage.depth stage.condition searches found ending ∧
        Refines solver abstract concrete stage searches result after ∧
          Reports (stage.rounds.map Round.step ++ found.map Feedback.step) ending result := by
  induction left : (∑ k ∈ Finset.range (abstract.configuration.bound + 1),
      Nat.pow abstract.system.states (k + 1)) - earlier.length using Nat.strong_induction_on
    generalizing stage condition searches earlier with
  | _ left ih =>
    rcases underway.ends_or_next builtAbstract builtConcrete correct room with
      ends | ⟨feedback, next, between, underway', isRound, goesOn, refines⟩
    · exact ends
    have taken := underway'.length_le builtAbstract
    rw [List.length_append, List.length_singleton] at taken
    obtain ⟨found, ending, result, after, goesOn', refines', reports⟩ :=
      ih _ (by rw [List.length_append, List.length_singleton]; omega) underway' rfl
    refine ⟨feedback :: found, ending, result, after, goesOn _ _ goesOn', refines _ _ refines', ?_⟩
    rwa [isRound, List.append_assoc, List.singleton_append, ← List.map_cons] at reports

/-! ## Errors -/

/-- With a correct solver a path that is read cannot be followed to an answer only where the
concrete system is uncertain. -/
theorem uncertain_of_fails_replay (fits : abstract.system.Fits) (built : concrete.WellBuilt)
    (correct : solver.Correct) {u : Valuation} (witnessed : abstract.IsWitnessed feedback u)
    {searchToo : Search σ} (resumes : searchToo.Resumes concrete condition)
    (ahead : searchToo.step ≤ feedback.step) {error : CheckError}
    (fails : Fails (replay solver concrete feedback searchToo.step) ⟨search, searchToo⟩ error
      searches) : error = .uncertain feedback.step := by
  obtain ⟨path, isPath, _⟩ := Witness.denotes_formula fits built.fits witnessed.decoded
  rw [replay, isPath] at fails
  rcases fails_bind_iff.mp fails with failed | ⟨path', between, found, fails⟩
  · obtain ⟨_, isFault, _⟩ := fails_ofFault_iff.mp failed
    contradiction
  rcases runs_ofFault_iff.mp found with ⟨isPath', rfl⟩
  obtain rfl := Except.ok.inj isPath'
  rcases fails_bind_iff.mp fails with failed | ⟨_, _, _, fails⟩
  · obtain ⟨search, failed, _⟩ := fails_onConcrete_iff.mp failed
    obtain ⟨answer, _, _, _, _, result, _⟩ := Search.exists_outcome_evaluateAt built correct resumes
      (fun _ => Iff.rfl) witnessed.room ahead
    rw [failed.1] at result
    cases answer with
    | none => contradiction
    | some answer =>
        rw [Search.resultAt] at result
        split at result
        · exact Except.error.inj result
        · contradiction
  · rcases fails_bind_iff.mp fails with failed | ⟨_, _, _, fails⟩
    · exact absurd failed not_fails_log
    · exact absurd fails not_fails_pure

/-- So a refinement ends with an answer, or because the concrete system is uncertain. -/
theorem Rounds.uncertain (goesOn : Rounds solver abstract concrete depth f searches found ending)
    (builtAbstract : abstract.WellBuilt) (builtConcrete : concrete.WellBuilt)
    (correct : solver.Correct)
    (underway : Underway abstract concrete condition depth f searches earlier) {error : CheckError}
    (isError : ending = .error error) : ∃ k, error = .uncertain k := by
  induction goesOn generalizing condition earlier with
  | settled _ _ => contradiction
  | confirmed _ _ _ _ => contradiction
  | stopped searched possible failed =>
      obtain rfl := Except.error.inj isError
      obtain ⟨search, evaluated, rfl⟩ := runs_onAbstract_iff.mp searched
      have candidate := underway.candidate builtAbstract correct.sound evaluated possible
      obtain ⟨u, witnessed, _⟩ := candidate.witnessed
      rw [← underway.hereToo] at failed
      exact ⟨_, uncertain_of_fails_replay builtAbstract.fits builtConcrete correct witnessed
        underway.resumesToo (underway.hereToo.trans_le candidate.after) failed⟩
  | refuted searched possible replayed _ isExclusion _ ih =>
      obtain ⟨search, evaluated, rfl⟩ := runs_onAbstract_iff.mp searched
      have candidate := underway.candidate builtAbstract correct.sound evaluated possible
      exact ih (underway.next builtAbstract builtConcrete correct.sound candidate replayed
        isExclusion) isError

/-! ## Checks -/

/-- A refinement is on its way when it starts. -/
theorem underway_initial (start : σ) (f : Formula) :
    Underway abstract concrete (fun _ => True) 0 f
      (⟨.initial start, .initial start⟩ : Refinement σ) [] where
  resumes := Search.resumes_initial start
  resumesToo := Search.resumes_initial start
  here := rfl
  hereToo := rfl
  within := Nat.zero_le _
  notAfter _ member := absurd member List.not_mem_nil
  witnessed _ member := absurd member List.not_mem_nil
  excluded _ member := absurd member List.not_mem_nil
  distinct := .nil

/-- So a refinement ends as its rounds do, with a report or because the concrete system is
uncertain. -/
theorem exists_rounds_refine (builtAbstract : abstract.WellBuilt)
    (builtConcrete : concrete.WellBuilt)
    (validated : (abstract.configuration.validate abstract.system).2 = .ok ())
    (correct : solver.Correct) (room : abstract.configuration.bound + 1 < Word.limit) (start : σ) :
    ∃ found ending result after,
      Rounds solver abstract concrete 0 (.constant true) ⟨.initial start, .initial start⟩ found
        ending ∧
      EndsWith (refine solver abstract concrete) ⟨.initial start, .initial start⟩ result after ∧
      Reports (found.map Feedback.step) ending result ∧
      ((∃ report, result = .ok report) ∨ ∃ k, result = .error (.uncertain k)) := by
  have underway : Underway abstract concrete (fun _ => True) Stage.first.depth Stage.first.condition
    ⟨.initial start, .initial start⟩ [] := underway_initial start _
  obtain ⟨found, ending, result, after, goesOn, refines, reports⟩ :=
    exists_rounds builtAbstract builtConcrete correct room underway
  refine ⟨found, ending, result, after, goesOn, (endsWith_refine_iff validated).mpr refines,
    reports, ?_⟩
  cases reports with
  | answer report _ => exact .inl ⟨report, rfl⟩
  | error error =>
      obtain ⟨k, rfl⟩ := goesOn.uncertain builtAbstract builtConcrete correct underway rfl
      exact .inr ⟨k, rfl⟩

end Refinement

/-- A check of two systems with a correct solver ends, and no round of it repeats an earlier one:
its witness, cut to the depth of the earlier round, is elsewhere or does not know all that was known
there.  So the patterns of the rounds are distinct, and there are no more rounds than paths. -/
theorem check_repeats_no_path {σ : Type} {solver : Sat.Solver σ}
    {abstractText concreteText : String} {abstract concrete : System}
    {configuration : Configuration}
    (loaded : ModelFile.load abstractText = .ok abstract)
    (loadedToo : ModelFile.load concreteText = .ok concrete)
    (fits : abstract.Fits) (fitsToo : concrete.Fits)
    (validated : (configuration.validate abstract).2 = .ok ())
    (validatedToo : (configuration.validate concrete).2 = .ok ())
    (room : configuration.bound + 1 < Word.limit) (correct : solver.Correct) (start : σ) :
    ∃ abstractTask task found ending events result,
      (Task.build abstract configuration).2 = .ok abstractTask ∧
      (Task.build concrete configuration).2 = .ok task ∧
      Refinement.Rounds solver abstractTask task 0 (.constant true)
        ⟨.initial start, .initial start⟩ found ending ∧
      check solver start concrete (some abstract) configuration = some (.ok (events, result)) ∧
      Refinement.Reports (found.map Feedback.step) ending result ∧
      (found.Pairwise fun earlier later => ¬earlier.Repeats later) ∧
      (found.map Feedback.pattern).Nodup ∧
      found.length ≤ ∑ k ∈ Finset.range (configuration.bound + 1), Nat.pow abstract.states (k + 1) ∧
      ((∃ report, result = .ok report) ∨ ∃ k, result = .error (.uncertain k)) := by
  obtain ⟨abstractTask, isAbstractTask, builtAbstract⟩ :=
    Task.exists_wellBuilt loaded validated fits
  obtain ⟨task, isTask, built⟩ := Task.exists_wellBuilt loadedToo validatedToo fitsToo
  obtain ⟨rfl, rfl, _⟩ := Task.build_ok isAbstractTask
  obtain ⟨found, ending, result, after, goesOn, isResult, reports, ends⟩ :=
    Refinement.exists_rounds_refine builtAbstract built validated correct room start
  obtain ⟨events, checked⟩ :=
    exists_check_result_iff.mpr ⟨task, abstractTask, after, isTask, isAbstractTask, isResult⟩
  obtain ⟨distinct, witnessed⟩ := goesOn.distinct builtAbstract built correct.sound
    (Refinement.underway_initial start _)
  rw [List.nil_append] at distinct witnessed
  have patterns : (found.map Feedback.pattern).Nodup := by
    rw [List.Nodup, List.pairwise_map]
    refine distinct.imp_of_mem fun {earlier later} _ member new => ?_
    obtain ⟨_, u, isWitnessed⟩ := witnessed later member
    exact Feedback.pattern_ne_of_not_repeats (isWitnessed.length_witness builtAbstract.fits) new
  exact ⟨abstractTask, task, found, ending, events, result, isAbstractTask, isTask, goesOn, checked,
    reports, distinct, patterns, Refinement.length_le_sum_states builtAbstract witnessed distinct,
    ends⟩

/-- Two processes that might go to the target, while in the concrete system both stay where they
are: there are two rounds at the same depth. -/
theorem check_repeats_no_path_of_staying :
    let abstractText := "\x7b\"predicates\": \x7b\x7d, \"processes\": " ++
      "[[\x7b\"source\": 0, \"destination\": 1, \"guard\": \"choice(false, false)\"\x7d], " ++
        "[\x7b\"source\": 0, \"destination\": 1, \"guard\": \"choice(false, false)\"\x7d]]\x7d"
    let concreteText := "\x7b\"predicates\": \x7b\x7d, \"processes\": " ++
      "[[\x7b\"source\": 0, \"destination\": 0\x7d, \x7b\"source\": 1, \"destination\": 1\x7d], " ++
        "[\x7b\"source\": 0, \"destination\": 0\x7d, \x7b\"source\": 1, \"destination\": 1\x7d]]\x7d"
    let going : Transition := ⟨0, 1, .choice (.literal false) (.literal false), []⟩
    let staying (l : Nat) : Transition := ⟨l, l, .always, []⟩
    let abstract : System := ⟨.empty, .empty, [⟨0, [going]⟩, ⟨1, [going]⟩]⟩
    let concrete : System :=
      ⟨.empty, .empty, [⟨0, [staying 0, staying 1]⟩, ⟨1, [staying 0, staying 1]⟩]⟩
    let configuration : Configuration := ⟨.reachability, 1, [0, 1], .any, 1, false, true⟩
    ModelFile.load abstractText = .ok abstract ∧ ModelFile.load concreteText = .ok concrete ∧
      abstract.Fits ∧ concrete.Fits ∧ (configuration.validate abstract).2 = .ok () ∧
        (configuration.validate concrete).2 = .ok () ∧ configuration.bound + 1 < Word.limit ∧
          Sat.splitting.Correct ∧ ∃ abstractTask task found ending,
            Refinement.Rounds Sat.splitting abstractTask task 0 (.constant true)
              ⟨.initial [], .initial []⟩ found ending ∧
            found.map Feedback.step = [1, 1] ∧
            (found.Pairwise fun earlier later => ¬earlier.Repeats later) ∧
            (found.map Feedback.pattern).Nodup ∧
            found.length ≤ ∑ k ∈ Finset.range 2, Nat.pow abstract.states (k + 1) := by
  intro abstractText concreteText going staying abstract concrete configuration
  have loaded : ModelFile.load abstractText = .ok abstract := by decide +kernel
  have loadedToo : ModelFile.load concreteText = .ok concrete := by decide +kernel
  have fits : abstract.Fits := by unfold System.Fits; decide
  have fitsToo : concrete.Fits := by unfold System.Fits; decide
  have validated : (configuration.validate abstract).2 = .ok () := by decide +kernel
  have validatedToo : (configuration.validate concrete).2 = .ok () := by decide +kernel
  have room : configuration.bound + 1 < Word.limit := by decide
  have correct := Sat.splitting_correct
  have ends : Refinement.verdictWithin Sat.splitting 3 [] concrete abstract configuration =
      some (.noneFound, [⟨1, .noneFound⟩, ⟨1, .noneFound⟩]) := by decide +kernel
  obtain ⟨eventsToo, report, checkedToo, _, rounds⟩ := exists_check_of_verdictWithin ends
  obtain ⟨abstractTask, task, found, _, _, _, _, _, goesOn, checked, reports, distinct,
    patterns, counted, _⟩ := check_repeats_no_path loaded loadedToo fits fitsToo validated
      validatedToo room correct []
  obtain rfl := (Prod.mk.inj (Except.ok.inj (Option.some.inj (checked.symm.trans checkedToo)))).2
  obtain ⟨_, isRound⟩ := reports
  have steps : found.map Feedback.step = [1, 1] := by
    rw [← isRound, rounds]
    rfl
  exact ⟨loaded, loadedToo, fits, fitsToo, validated, validatedToo, room, correct, abstractTask,
    task, found, _, goesOn, steps, distinct, patterns, counted⟩

end Trivalent
