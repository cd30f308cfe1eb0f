import Trivalent.Proofs.Refinement.Soundness
import Trivalent.Proofs.Refinement.Termination
import Trivalent.Proofs.Sat.Preferring

/-!
# The answer does not depend on the solver

A solver is free to choose the paths of the abstract system that are followed, and a path that knows
less excludes more.  Still a check for a target gives the same answer for every correct solver, if
the concrete system has no choices: the least depth at which the abstract system meets the target
however unknown predicates are read, or at which a run of the concrete system to the target is on an
abstract one.  A path that is excluded is at the target where it was refuted, so it can be of
neither kind from there on.
-/

namespace Trivalent

namespace System

variable {abstract concrete : System} {configuration : Configuration} {n : Nat}

/-- A depth settles a check of two systems: the abstract system has a violation there that does not
depend on unknown predicates, or a violation of the concrete system follows one of the abstract
system. -/
def Settles (abstract concrete : System) (configuration : Configuration) (n : Nat) : Prop :=
  (∃ a, abstract.Violates configuration false n a) ∨
    ∃ a c, abstract.Violates configuration true n a ∧ concrete.Violates configuration true n c ∧
      ∀ t ≤ n, Covers abstract concrete (a t) (c t)

/-- The answer that the depths which settle a check leave: the least one within the bound, or that
there is none. -/
inductive Answers (abstract concrete : System) (configuration : Configuration) :
    Verdict → Nat → Prop where
  | definite {n : Nat}
      (least :
        IsLeast {n | n ≤ configuration.bound ∧ Settles abstract concrete configuration n} n) :
      Answers abstract concrete configuration .definite n
  | noneFound (never : ∀ n ≤ configuration.bound, ¬Settles abstract concrete configuration n) :
      Answers abstract concrete configuration .noneFound configuration.bound

/-- There is one such answer only. -/
theorem Answers.unique {verdict verdict' : Verdict} {n' : Nat}
    (answers : Answers abstract concrete configuration verdict n)
    (answersToo : Answers abstract concrete configuration verdict' n') :
    verdict = verdict' ∧ n = n' := by
  cases answers with
  | definite least =>
      cases answersToo with
      | definite leastToo => exact ⟨rfl, least.unique leastToo⟩
      | noneFound never => exact absurd least.1.2 (never _ least.1.1)
  | noneFound never =>
      cases answersToo with
      | definite leastToo => exact absurd leastToo.1.2 (never _ leastToo.1.1)
      | noneFound _ => exact ⟨rfl, rfl⟩

/-- At the depths of the rounds there is no violation that does not depend on unknown predicates. -/
def NoneDefinite (abstract : System) (configuration : Configuration) (rounds : List Round) : Prop :=
  ∀ round ∈ rounds, ∀ a, ¬abstract.Violates configuration false round.step a

section Targets

variable {rounds : List Round} {last : Nat} {a : Nat → State}
  (reachability : configuration.property = .reachability)
  (valid : ∀ p ∈ configuration.processes, p < abstract.processes.length)

include reachability valid

/-- A run that is excluded is at the target where it was refuted, so it depends on unknown
predicates. -/
theorem Excluded.not_isRun (excluded : Excluded abstract concrete configuration rounds last a)
    (noneDefinite : abstract.NoneDefinite configuration rounds) (within : last ≤ n) :
    ¬abstract.IsRun false n a := by
  rintro run
  obtain ⟨j, before, isRound, path, spurious, follows⟩ := excluded
  have violates := (violates_reachability_iff reachability).mp spurious.violates
  have meets := ((follows j (Nat.le_refl j)).meets_iff valid valid).mp violates.2
  apply noneDefinite _ isRound a
  exact (violates_reachability_iff reachability).mpr
    ⟨run.mono (Nat.le_trans before within), meets⟩

/-- A depth at which all violations are excluded does not settle the check. -/
theorem not_settles_of_excluded (declared : abstract.Declared)
    (validToo : ∀ p ∈ configuration.processes, p < concrete.processes.length)
    (noneDefinite : abstract.NoneDefinite configuration rounds)
    (excluded : ∀ a, abstract.Violates configuration true n a →
      Excluded abstract concrete configuration rounds n a) :
    ¬Settles abstract concrete configuration n := by
  rintro (⟨a, violates⟩ | ⟨a, c, violates, violatesToo, covers⟩)
  · obtain ⟨run, meets⟩ := (violates_reachability_iff reachability).mp violates
    have optimistic := (violates_reachability_iff reachability).mpr ⟨run.optimistic declared, meets⟩
    exact (excluded a optimistic).not_isRun reachability valid noneDefinite (Nat.le_refl n) run
  · obtain ⟨run, _⟩ := (violates_reachability_iff reachability).mp violatesToo
    exact not_continuesRefuted reachability valid validToo run
      ((excluded a violates).continuesRefuted violatesToo covers)

end Targets

end System

namespace Refinement

open Trivalent.Action

variable {σ : Type} {solver : Sat.Solver σ} {abstract concrete : Task}
  {condition : Valuation → Prop} {depth n : Nat} {f : Formula} {further : Valuation → Prop}
  {searches : Refinement σ} {found : List Feedback} {feedback : Feedback} {rounds : List Round}

section Targets

variable (builtAbstract : abstract.WellBuilt) (builtConcrete : concrete.WellBuilt)
  (declared : abstract.system.Declared)
  (same : concrete.configuration = abstract.configuration)
  (reachability : abstract.configuration.property = .reachability)

include builtAbstract reachability

/-- Behind a round there is no violation at its depth that does not depend on unknown predicates. -/
theorem Establishes.not_violates
    (established : Establishes abstract concrete condition depth rounds)
    (noneDefinite : abstract.system.NoneDefinite abstract.configuration rounds)
    (after : depth ≤ n) (room : n < Word.limit)
    (indefinite : ¬abstract.Possible condition (abstract.Reaches n) n false) (a : Nat → State) :
    ¬abstract.system.Violates abstract.configuration false n a := by
  intro violates
  obtain ⟨run, _⟩ := (System.violates_reachability_iff reachability).mp violates
  obtain ⟨v, unrolls, reaches, reads, agree⟩ :=
    Task.exists_unrolls_of_violates builtAbstract room violates
  have ruledOut : ¬condition v := fun holds => indefinite ⟨v, unrolls, holds, reaches, reads⟩
  have excluded := (established.excluded v ruledOut).congr fun t before =>
    agree t (Nat.le_trans before after)
  exact excluded.not_isRun reachability builtAbstract.valid noneDefinite after run

include builtConcrete declared same

/-- A depth at which nothing is found does not settle the check. -/
theorem Establishes.not_settles
    (established : Establishes abstract concrete condition depth rounds)
    (noneDefinite : abstract.system.NoneDefinite abstract.configuration rounds)
    (room : n < Word.limit)
    (never : depth ≤ n → ¬abstract.Possible condition (abstract.Reaches n) n true) :
    ¬System.Settles abstract.system concrete.system abstract.configuration n := by
  have validToo : ∀ p ∈ abstract.configuration.processes, p < concrete.system.processes.length := by
    rw [← same]
    exact builtConcrete.valid
  apply System.not_settles_of_excluded reachability builtAbstract.valid declared validToo
    noneDefinite
  intro a violates
  obtain ⟨v, unrolls, reaches, reads, agree⟩ :=
    Task.exists_unrolls_of_violates builtAbstract room violates
  exact (established.of_impossible never v unrolls reaches reads).congr agree

/-- The least depth at which something is found, if it settles the check, is the least one that
does. -/
theorem Establishes.isLeast
    (established : Establishes abstract concrete condition depth rounds)
    (noneDefinite : abstract.system.NoneDefinite abstract.configuration rounds)
    (room : n < Word.limit) (inside : n ≤ abstract.configuration.bound)
    (least : ∀ m, depth ≤ m → m < n → ¬abstract.Possible condition (abstract.Reaches m) m true)
    (settles : System.Settles abstract.system concrete.system abstract.configuration n) :
    IsLeast {n | n ≤ abstract.configuration.bound ∧
      System.Settles abstract.system concrete.system abstract.configuration n} n := by
  refine ⟨⟨inside, settles⟩, ?_⟩
  rintro m ⟨_, settlesToo⟩
  by_contra notAfter
  have before := Nat.lt_of_not_le notAfter
  exact established.not_settles builtAbstract builtConcrete declared same reachability noneDefinite
    (Nat.lt_trans before room) (fun after => least m after before) settlesToo

/-- A search of the abstract system that is certain gives the answer that the depths leave. -/
theorem Establishes.answers_of_runs
    (established : Establishes abstract concrete (fun v => condition v ∧ further v) depth rounds)
    (noneDefinite : abstract.system.NoneDefinite abstract.configuration rounds)
    (sound : solver.Sound) {search search' : Search σ} (resumes : search.Resumes abstract condition)
    (meaning : f.Expresses further) (within : depth ≤ abstract.configuration.bound + 1)
    (runs : Runs (Search.evaluate solver abstract depth f) search feedback search')
    (certain : feedback.verdict ≠ .possible) :
    System.Answers abstract.system concrete.system abstract.configuration feedback.verdict
      feedback.step := by
  obtain ⟨answers, knows, reached⟩ :=
    Search.runs_evaluate builtAbstract sound resumes meaning within runs
  have room := knows.room
  rw [reached] at room
  cases answers with
  | exhausted none never =>
      obtain rfl := none
      refine .noneFound fun n inside => ?_
      exact established.not_settles builtAbstract builtConcrete declared same reachability
        noneDefinite (Nat.lt_of_le_of_lt (Nat.le_succ_of_le inside) room)
        fun after => never n after inside
  | found n after inside least finds =>
      rw [Feedback.depth_of_found finds.found] at room
      obtain rfl := finds.step
      have definite : feedback.verdict = .definite := Verdict.eq_definite certain finds.found
      obtain ⟨v, unrolls, _, reaches, reads⟩ := finds.definite_iff.mp definite
      have violates := Task.violates_of_unrolls builtAbstract room unrolls reaches
      rw [reads] at violates
      rw [definite]
      exact .definite (established.isLeast builtAbstract builtConcrete declared same reachability
        noneDefinite room inside least (.inl ⟨_, violates⟩))

/-- So does a candidate whose path leads to a violation in the concrete system. -/
theorem Establishes.answers_of_replay
    (established : Establishes abstract concrete condition depth rounds)
    (noneDefinite : abstract.system.NoneDefinite abstract.configuration rounds)
    (sound : solver.Sound) {search searchToo : Search σ}
    (candidate : Candidate abstract condition depth feedback search)
    (resumesToo : searchToo.Resumes concrete fun _ => True) {answer : Feedback}
    (replayed : Runs (replay solver concrete feedback depth) ⟨search, searchToo⟩ answer searches)
    (definite : answer.verdict = .definite) :
    System.Answers abstract.system concrete.system abstract.configuration answer.verdict
      answer.step := by
  obtain ⟨u, witnessed, _⟩ := candidate.witnessed
  obtain ⟨answers, _⟩ := answersAt_of_replay builtAbstract.fits builtConcrete sound witnessed
    resumesToo replayed
  cases answers with
  | refuted none _ => exact absurd (none ▸ definite) nofun
  | confirmed _ finds =>
      obtain ⟨v, unrolls, _, ⟨covers, reaches⟩, reads, _⟩ := finds.witness
      have violates := Task.violates_of_unrolls builtAbstract witnessed.room witnessed.unrolls
        witnessed.reaches
      have violatesToo := Task.violates_of_unrolls builtConcrete witnessed.room unrolls reaches
      rw [witnessed.reads] at violates
      rw [reads, same] at violatesToo
      rw [definite, finds.step]
      exact .definite (established.isLeast builtAbstract builtConcrete declared same reachability
        noneDefinite witnessed.room candidate.inside candidate.least
        (.inr ⟨_, _, violates, violatesToo, covers⟩))

/-- So the rounds of a refinement end with the answer that the depths leave. -/
theorem Rounds.answers {answer : Feedback} {ending : Except CheckError Feedback}
    (goesOn : Rounds solver abstract concrete depth f searches found ending)
    (isAnswer : ending = .ok answer) (sound : solver.Sound)
    (resumes : searches.abstract.Resumes abstract condition)
    (resumesToo : searches.concrete.Resumes concrete fun _ => True)
    (meaning : f.Expresses further) (within : depth ≤ abstract.configuration.bound + 1)
    (established : Establishes abstract concrete (fun v => condition v ∧ further v) depth rounds)
    (noneDefinite : abstract.system.NoneDefinite abstract.configuration rounds) :
    System.Answers abstract.system concrete.system abstract.configuration answer.verdict
      answer.step := by
  induction goesOn generalizing condition further rounds with
  | settled searched certain =>
      obtain rfl := Except.ok.inj isAnswer
      obtain ⟨search, evaluated, _⟩ := runs_onAbstract_iff.mp searched
      exact established.answers_of_runs builtAbstract builtConcrete declared same reachability
        noneDefinite sound resumes meaning within evaluated certain
  | confirmed searched possible replayed definite =>
      obtain rfl := Except.ok.inj isAnswer
      obtain ⟨search, evaluated, rfl⟩ := runs_onAbstract_iff.mp searched
      have candidate :=
        candidate_of_runs builtAbstract sound resumes meaning within evaluated possible
      exact established.answers_of_replay builtAbstract builtConcrete declared same reachability
        noneDefinite sound candidate resumesToo replayed definite
  | stopped _ _ _ => contradiction
  | refuted searched possible replayed indefinite isExclusion _ ih =>
      obtain ⟨search, evaluated, rfl⟩ := runs_onAbstract_iff.mp searched
      have candidate :=
        candidate_of_runs builtAbstract sound resumes meaning within evaluated possible
      obtain ⟨u, witnessed, _⟩ := candidate.witnessed
      obtain ⟨rfl, resumesToo', off, excludes, establishedToo⟩ := established.next builtAbstract
        builtConcrete same sound candidate resumesToo replayed indefinite isExclusion
      refine ih isAnswer candidate.knows.resumes resumesToo' excludes
        (Nat.le_succ_of_le candidate.inside) establishedToo ?_
      -- What was refuted at this depth is of no use to a definite violation, nor was any before.
      refine List.forall_mem_append.mpr ⟨noneDefinite, List.forall_mem_singleton.mpr ?_⟩
      exact established.not_violates builtAbstract reachability noneDefinite candidate.after
        witnessed.room candidate.indefinite

end Targets

end Refinement

/-! ## Checks -/

section Checks

variable {abstractText concreteText : String} {abstract concrete : System}
  {configuration : Configuration}

/-- A check for a target has an answer, and it is the one that the depths leave. -/
theorem exists_check_answers {σ : Type} {solver : Sat.Solver σ}
    (loaded : ModelFile.load abstractText = .ok abstract)
    (loadedToo : ModelFile.load concreteText = .ok concrete)
    (fits : abstract.Fits) (fitsToo : concrete.Fits)
    (validated : (configuration.validate abstract).2 = .ok ())
    (validatedToo : (configuration.validate concrete).2 = .ok ())
    (reachability : configuration.property = .reachability) (choiceless : concrete.Choiceless)
    (room : configuration.bound + 1 < Word.limit) (correct : solver.Correct) (start : σ) :
    ∃ events report,
      check solver start concrete (some abstract) configuration = some (.ok (events, .ok report)) ∧
        System.Answers abstract concrete configuration report.feedback.verdict
          report.feedback.step := by
  obtain ⟨abstractTask, isAbstractTask, builtAbstract⟩ :=
    Task.exists_wellBuilt loaded validated fits
  obtain ⟨task, isTask, built⟩ := Task.exists_wellBuilt loadedToo validatedToo fitsToo
  have declared := ModelFile.declared_of_load loaded
  have declaredToo := ModelFile.declared_of_load loadedToo
  obtain ⟨rfl, rfl, _⟩ := Task.build_ok isAbstractTask
  obtain ⟨rfl, same, _⟩ := Task.build_ok isTask
  obtain ⟨found, ending, result, after, goesOn, isResult, reports, ends⟩ :=
    Refinement.exists_rounds_refine builtAbstract built validated correct room start
  obtain ⟨report, rfl⟩ | ⟨k, rfl⟩ := ends
  · obtain ⟨events, checked⟩ :=
      exists_check_result_iff.mpr ⟨task, abstractTask, after, isTask, isAbstractTask, isResult⟩
    refine ⟨events, report, checked, ?_⟩
    cases reports with
    | answer report _ =>
        exact goesOn.answers builtAbstract built declared same reachability rfl correct.sound
          (Search.resumes_initial start) (Search.resumes_initial start) Formula.expresses_true
          (Nat.zero_le _) (Refinement.establishes_initial) fun _ member =>
            absurd member List.not_mem_nil
  · have refines := (Refinement.endsWith_refine_iff validated).mp isResult
    exact absurd refines (Refinement.not_uncertain_of_refines built declaredToo choiceless
      correct.sound builtAbstract (Search.resumes_fresh start) (Search.resumes_fresh start)
      (Nat.zero_le _))

end Checks

/-- Two checks for a target with correct solvers, whatever paths these choose to follow, have the
same verdict at the same depth if the concrete system has no choices: a definite violation at the
least depth that settles the check, or none if no depth within the bound does. -/
theorem check_independent_of_solver {σ σ' : Type} {solver : Sat.Solver σ}
    {solverToo : Sat.Solver σ'} {abstractText concreteText : String} {abstract concrete : System}
    {configuration : Configuration} (loaded : ModelFile.load abstractText = .ok abstract)
    (loadedToo : ModelFile.load concreteText = .ok concrete)
    (fits : abstract.Fits) (fitsToo : concrete.Fits)
    (validated : (configuration.validate abstract).2 = .ok ())
    (validatedToo : (configuration.validate concrete).2 = .ok ())
    (reachability : configuration.property = .reachability) (choiceless : concrete.Choiceless)
    (room : configuration.bound + 1 < Word.limit) (correct : solver.Correct)
    (correctToo : solverToo.Correct) (start : σ) (startToo : σ') :
    ∃ events report eventsToo reportToo,
      check solver start concrete (some abstract) configuration = some (.ok (events, .ok report)) ∧
      check solverToo startToo concrete (some abstract) configuration =
        some (.ok (eventsToo, .ok reportToo)) ∧
      report.feedback.verdict = reportToo.feedback.verdict ∧
      report.feedback.step = reportToo.feedback.step ∧
      System.Answers abstract concrete configuration report.feedback.verdict
        report.feedback.step := by
  obtain ⟨events, report, checked, answers⟩ := exists_check_answers loaded loadedToo fits fitsToo
    validated validatedToo reachability choiceless room correct start
  obtain ⟨eventsToo, reportToo, checkedToo, answersToo⟩ := exists_check_answers loaded loadedToo
    fits fitsToo validated validatedToo reachability choiceless room correctToo startToo
  obtain ⟨verdict, step⟩ := answers.unique answersToo
  exact ⟨events, report, eventsToo, reportToo, checked, checkedToo, verdict, step, answers⟩

/-- A process that might go to the target and might forget a predicate on the way, while in the
concrete system it stays where it is.  A solver that picks the path that forgets needs one round,
one that picks the other path needs two. -/
theorem check_independent_of_solver_of_forgetting :
    let abstractText := "\x7b\"predicates\": \x7b\"x\": 0\x7d, \"processes\": " ++
      "[[\x7b\"source\": 0, \"destination\": 1, \"guard\": \"choice(false, false)\"\x7d, " ++
        "\x7b\"source\": 0, \"destination\": 1, \"guard\": \"choice(false, false)\", " ++
          "\"assignments\": [\x7b\"predicate\": 0, \"RHS\": \"choice(false, false)\"\x7d]\x7d]]\x7d"
    let concreteText := "\x7b\"predicates\": \x7b\x7d, \"processes\": " ++
      "[[\x7b\"source\": 0, \"destination\": 0\x7d, " ++
        "\x7b\"source\": 1, \"destination\": 1\x7d]]\x7d"
    let unknown : Term := .choice (.literal false) (.literal false)
    let abstract : System := ⟨.ofList [("x", 0)], .empty,
      [⟨0, [⟨0, 1, unknown, []⟩, ⟨0, 1, unknown, [⟨0, unknown⟩]⟩]⟩]⟩
    let concrete : System := ⟨.empty, .empty, [⟨0, [⟨0, 0, .always, []⟩, ⟨1, 1, .always, []⟩]⟩]⟩
    let configuration : Configuration := ⟨.reachability, 1, [0], .all, 1, false, true⟩
    let remembering : Valuation := fun
      | .location _ _ 1 _ | .predicate _ .truth _ _ | .wildcard => true
      | _ => false
    let solver := Sat.splitting
    let solverToo := Sat.preferring remembering
    ModelFile.load abstractText = .ok abstract ∧ ModelFile.load concreteText = .ok concrete ∧
      abstract.Fits ∧ concrete.Fits ∧ (configuration.validate abstract).2 = .ok () ∧
        (configuration.validate concrete).2 = .ok () ∧ concrete.Choiceless ∧
          configuration.bound + 1 < Word.limit ∧ solver.Correct ∧ solverToo.Correct ∧
            ∃ events report eventsToo reportToo,
              check solver [] concrete (some abstract) configuration =
                some (.ok (events, .ok report)) ∧
              check solverToo [] concrete (some abstract) configuration =
                some (.ok (eventsToo, .ok reportToo)) ∧
              report.rounds = [⟨1, .noneFound⟩] ∧
              reportToo.rounds = [⟨1, .noneFound⟩, ⟨1, .noneFound⟩] ∧
              report.feedback.verdict = reportToo.feedback.verdict ∧
              report.feedback.step = reportToo.feedback.step ∧
              System.Answers abstract concrete configuration .noneFound report.feedback.step := by
  intro abstractText concreteText unknown abstract concrete configuration remembering solver
    solverToo
  have loaded : ModelFile.load abstractText = .ok abstract := by decide +kernel
  have loadedToo : ModelFile.load concreteText = .ok concrete := by decide +kernel
  have fits : abstract.Fits := by unfold System.Fits; decide
  have fitsToo : concrete.Fits := by unfold System.Fits; decide
  have validated : (configuration.validate abstract).2 = .ok () := by decide +kernel
  have validatedToo : (configuration.validate concrete).2 = .ok () := by decide +kernel
  have choiceless : concrete.Choiceless := by decide
  have room : configuration.bound + 1 < Word.limit := by decide
  have correct : solver.Correct := Sat.splitting_correct
  have correctToo : solverToo.Correct := Sat.preferring_correct remembering
  have ends : Refinement.verdictWithin solver 2 [] concrete abstract configuration =
      some (.noneFound, [⟨1, .noneFound⟩]) := by decide +kernel
  have endsToo : Refinement.verdictWithin solverToo 3 [] concrete abstract configuration =
      some (.noneFound, [⟨1, .noneFound⟩, ⟨1, .noneFound⟩]) := by decide +kernel
  obtain ⟨_, report', checked', noneFound, rounds⟩ := exists_check_of_verdictWithin ends
  obtain ⟨_, reportToo', checkedToo', _, roundsToo⟩ := exists_check_of_verdictWithin endsToo
  obtain ⟨events, report, eventsToo, reportToo, checked, checkedToo, verdict, step, answers⟩ :=
    check_independent_of_solver loaded loadedToo fits fitsToo validated validatedToo rfl choiceless
      room correct correctToo [] []
  obtain rfl : report = report' :=
    Except.ok.inj (Prod.mk.inj (Except.ok.inj (Option.some.inj (checked.symm.trans checked')))).2
  obtain rfl : reportToo = reportToo' :=
    Except.ok.inj
      (Prod.mk.inj (Except.ok.inj (Option.some.inj (checkedToo.symm.trans checkedToo')))).2
  exact ⟨loaded, loadedToo, fits, fitsToo, validated, validatedToo, choiceless, room, correct,
    correctToo, events, report, eventsToo, reportToo, checked, checkedToo, rounds, roundsToo,
    verdict, step, noneFound ▸ answers⟩

end Trivalent
