import Trivalent.Proofs.Refinement.Evaluation
import Trivalent.Proofs.Sat.Correct
import Trivalent.Proofs.Search.Counted

/-!
# Searches that stay in step

The searches of a refinement are separate, and each counts its own steps.  At the beginning of every
round both have come to the depth from which the round goes on.  This needs nothing of the solver: it
may answer what it likes and fail when it likes, and the rounds may go on for ever.
-/

namespace Trivalent

namespace Refinement

open Trivalent.Action

variable {σ : Type}

/-! ## Rounds -/

/-- A refinement is about to begin a round: it will search from a depth under a further condition,
behind some rounds. -/
inductive Begins (solver : Sat.Solver σ) (abstract concrete : Task) (start startToo : σ) :
    (depth : Nat) → (condition : Formula) → List Round → Refinement σ → Prop where
  | first :
      Begins solver abstract concrete start startToo 0 (.constant true) []
        ⟨.initial start, .initial startToo⟩
  /-- The path to a possible violation was followed to no violation, and is excluded. -/
  | next {depth : Nat} {condition path exclusion : Formula} {rounds : List Round}
      {searches : Refinement σ} {feedback answer : Feedback} {search searchToo : Search σ}
      (begun : Begins solver abstract concrete start startToo depth condition rounds searches)
      (searched : Runs (Search.evaluate solver abstract depth condition) searches.abstract feedback
        search)
      (possible : feedback.verdict = .possible)
      (isPath : Witness.formula concrete.system feedback.witness = .ok path)
      (replayed : Runs (Search.evaluateAt solver concrete [path] feedback.step depth)
        searches.concrete answer searchToo)
      (indefinite : answer.verdict ≠ .definite)
      (isExclusion : Witness.formula abstract.system feedback.witness = .ok exclusion) :
      Begins solver abstract concrete start startToo feedback.step exclusion.neg
        (rounds ++ [⟨feedback.step, answer.verdict⟩]) ⟨search, searchToo⟩

/-- Which of the systems a final answer is about. -/
inductive Origin where
  | abstract
  | concrete
  deriving DecidableEq, Repr

/-- A refinement ends in some round with a report. -/
inductive Concludes (solver : Sat.Solver σ) (abstract concrete : Task) (start startToo : σ) :
    Report → Origin → Prop where
  /-- The feedback on the abstract system is the answer. -/
  | settled {depth : Nat} {condition : Formula} {rounds : List Round} {searches : Refinement σ}
      {feedback : Feedback} {search : Search σ}
      (begun : Begins solver abstract concrete start startToo depth condition rounds searches)
      (searched : Runs (Search.evaluate solver abstract depth condition) searches.abstract feedback
        search)
      (certain : feedback.verdict ≠ .possible) :
      Concludes solver abstract concrete start startToo ⟨feedback, rounds⟩ .abstract
  /-- The path leads to a violation in the concrete system. -/
  | confirmed {depth : Nat} {condition path : Formula} {rounds : List Round}
      {searches : Refinement σ} {feedback answer : Feedback} {search searchToo : Search σ}
      (begun : Begins solver abstract concrete start startToo depth condition rounds searches)
      (searched : Runs (Search.evaluate solver abstract depth condition) searches.abstract feedback
        search)
      (possible : feedback.verdict = .possible)
      (isPath : Witness.formula concrete.system feedback.witness = .ok path)
      (replayed : Runs (Search.evaluateAt solver concrete [path] feedback.step depth)
        searches.concrete answer searchToo)
      (definite : answer.verdict = .definite) :
      Concludes solver abstract concrete start startToo
        ⟨answer, rounds ++ [⟨feedback.step, answer.verdict⟩]⟩ .concrete

/-! ## What every round keeps -/

/-- Both searches have come to the depth from which the next round goes on, and the rounds so far were
at depths in order and found nothing. -/
structure InStep (abstract : Task) (depth : Nat) (rounds : List Round) (searches : Refinement σ) :
    Prop where
  here : searches.abstract.step = depth
  hereToo : searches.concrete.step = depth
  within : depth ≤ abstract.configuration.bound
  ordered : (rounds.map Round.step).Pairwise (· ≤ ·)
  notAfter : ∀ round ∈ rounds, round.step ≤ depth
  refuted : ∀ round ∈ rounds, round.concrete = .noneFound

variable {solver : Sat.Solver σ} {abstract concrete : Task} {start startToo : σ} {depth : Nat}
  {condition : Formula} {rounds : List Round} {searches searches' : Refinement σ}
  {feedback answer : Feedback} {search searchToo : Search σ} {error : CheckError}

theorem inStep_initial :
    InStep abstract 0 [] (⟨.initial start, .initial startToo⟩ : Refinement σ) where
  here := rfl
  hereToo := rfl
  within := Nat.zero_le _
  ordered := .nil
  notAfter _ member := absurd member List.not_mem_nil
  refuted _ member := absurd member List.not_mem_nil

/-- The depths of the rounds stay in order when one is added at a depth where the search went on. -/
theorem InStep.ordered_append (inStep : InStep abstract depth rounds searches)
    (after : depth ≤ feedback.step) (verdict : Verdict) :
    ((rounds ++ [(⟨feedback.step, verdict⟩ : Round)]).map Round.step).Pairwise (· ≤ ·) := by
  rw [List.map_append, List.pairwise_append]
  refine ⟨inStep.ordered, List.pairwise_singleton _ _, ?_⟩
  simp only [List.forall_mem_map, List.map_cons, List.map_nil, List.forall_mem_singleton]
  exact fun round member => Nat.le_trans (inStep.notAfter round member) after

/-- A round that finds nothing leaves the searches in step. -/
theorem InStep.next (inStep : InStep abstract depth rounds searches) {constraints : List Formula}
    (searched : Runs (Search.evaluate solver abstract depth condition) searches.abstract feedback
      search)
    (possible : feedback.verdict = .possible)
    (replayed : Runs (Search.evaluateAt solver concrete constraints feedback.step depth)
      searches.concrete answer searchToo)
    (indefinite : answer.verdict ≠ .definite) :
    InStep abstract feedback.step (rounds ++ [⟨feedback.step, answer.verdict⟩])
      (⟨search, searchToo⟩ : Refinement σ) := by
  have found : feedback.verdict ≠ .noneFound := by
    rw [possible]
    exact nofun
  obtain ⟨after, within, here⟩ := Search.found_of_runs_evaluate searched found
  obtain ⟨hereToo, _, verdict⟩ := Search.answered_of_runs_evaluateAt replayed
  refine ⟨here, hereToo, within, inStep.ordered_append after _, ?_, ?_⟩
  · rw [List.forall_mem_append, List.forall_mem_singleton]
    exact ⟨fun round member => Nat.le_trans (inStep.notAfter round member) after, Nat.le_refl _⟩
  · rw [List.forall_mem_append, List.forall_mem_singleton]
    exact ⟨inStep.refuted, verdict.resolve_left indefinite⟩

/-- At the beginning of every round the searches are in step. -/
theorem Begins.inStep
    (begins : Begins solver abstract concrete start startToo depth condition rounds searches) :
    InStep abstract depth rounds searches := by
  induction begins with
  | first => exact inStep_initial
  | next _ searched possible _ replayed indefinite _ ih =>
      exact ih.next searched possible replayed indefinite

/-! ## How refinements end -/

/-- The rounds of a report are at depths in order up to the bound; all but the last one found nothing,
and the last one found a definite violation exactly if the answer is about the concrete system, which
is then at the depth of that round. -/
structure IsOrdered (bound : Nat) (report : Report) (origin : Origin) : Prop where
  ordered : (report.rounds.map Round.step).Pairwise (· ≤ ·)
  within : ∀ round ∈ report.rounds, round.step ≤ bound
  refuted : ∀ round ∈ report.rounds.dropLast, round.concrete = .noneFound
  certain : ∀ round ∈ report.rounds, round.concrete ≠ .possible
  definite_iff : (∃ round, report.rounds.getLast? = some round ∧ round.concrete = .definite) ↔
    origin = .concrete
  final : origin = .concrete → ∀ round, report.rounds.getLast? = some round →
    round.step = report.feedback.step

theorem Concludes.isOrdered {report : Report} {origin : Origin}
    (concludes : Concludes solver abstract concrete start startToo report origin) :
    IsOrdered abstract.configuration.bound report origin := by
  cases concludes with
  | settled begun searched certain =>
      have inStep := begun.inStep
      constructor
      case ordered => exact inStep.ordered
      case within =>
        exact fun round member => Nat.le_trans (inStep.notAfter round member) inStep.within
      case refuted => exact fun round member => inStep.refuted round (List.dropLast_subset _ member)
      case certain =>
        intro round member
        rw [inStep.refuted round member]
        exact nofun
      case definite_iff =>
        constructor
        · rintro ⟨round, isLast, isDefinite⟩
          have refuted := inStep.refuted round (List.mem_of_getLast? isLast)
          exact nomatch isDefinite.symm.trans refuted
        · exact nofun
      case final => exact nofun
  | @confirmed _ _ _ rounds _ feedback answer _ _ begun searched possible _ replayed definite =>
      have inStep := begun.inStep
      have found : feedback.verdict ≠ .noneFound := by
        rw [possible]
        exact nofun
      obtain ⟨after, within, _⟩ := Search.found_of_runs_evaluate searched found
      obtain ⟨_, step, _⟩ := Search.answered_of_runs_evaluateAt replayed
      constructor
      case ordered => exact inStep.ordered_append after _
      case within =>
        rw [List.forall_mem_append, List.forall_mem_singleton]
        exact ⟨fun round member => Nat.le_trans (inStep.notAfter round member) inStep.within, within⟩
      case refuted =>
        rw [List.dropLast_concat]
        exact inStep.refuted
      case certain =>
        rw [List.forall_mem_append, List.forall_mem_singleton, definite]
        exact ⟨fun round member => by rw [inStep.refuted round member]; exact nofun, nofun⟩
      case definite_iff => exact ⟨fun _ => rfl, fun _ => ⟨_, List.getLast?_concat, definite⟩⟩
      case final =>
        intro _ round isLast
        rw [List.getLast?_concat] at isLast
        obtain rfl := Option.some.inj isLast
        exact step.symm

/-- A refinement that goes on from the beginning of a round and ends with a report concludes with it. -/
theorem Begins.exists_concludes {stage : Stage} {report : Report}
    (begins : Begins solver abstract concrete start startToo stage.depth stage.condition
      stage.rounds searches)
    (refines : Refines solver abstract concrete stage searches (.ok report) searches') :
    ∃ origin, Concludes solver abstract concrete start startToo report origin := by
  generalize isReport : Except.ok report = result at refines
  induction refines with
  | settled searched certain =>
      obtain rfl := Except.ok.inj isReport
      exact ⟨.abstract, .settled begins searched certain⟩
  | confirmed searched possible replayed definite =>
      obtain rfl := Except.ok.inj isReport
      obtain ⟨path, searchToo, isPath, isReplayed, _⟩ := runs_replay_iff.mp replayed
      exact ⟨.concrete, .confirmed begins searched possible isPath isReplayed definite⟩
  | refuted searched possible replayed indefinite isExclusion _ ih =>
      obtain ⟨path, searchToo, isPath, isReplayed, rfl⟩ := runs_replay_iff.mp replayed
      exact ih (begins.next searched possible isPath isReplayed indefinite isExclusion) isReport
  | failed _ | stopped _ _ _ | unstated _ _ _ _ _ => contradiction

theorem exists_concludes_of_refine {report : Report}
    (ends : EndsWith (refine solver abstract concrete) ⟨.initial start, .initial startToo⟩
      (.ok report) searches') :
    ∃ origin, Concludes solver abstract concrete start startToo report origin :=
  Begins.first.exists_concludes (refines_of_endsWith_ok ends).2

/-- The search of the abstract system in a round is no misuse. -/
theorem InStep.not_isMisuse_of_fails_evaluate (inStep : InStep abstract depth rounds searches)
    (fails : Fails (Search.evaluate solver abstract depth condition) searches.abstract error search) :
    ¬error.IsMisuse :=
  Search.not_isMisuse_of_fails_evaluate inStep.here.symm fails

/-- Nor is that of the concrete one, which is asked for the depth where the other one has come to. -/
theorem InStep.not_isMisuse_of_fails_evaluateAt (inStep : InStep abstract depth rounds searches)
    (searched : Runs (Search.evaluate solver abstract depth condition) searches.abstract feedback
      search)
    (possible : feedback.verdict = .possible) {constraints : List Formula}
    (fails : Fails (Search.evaluateAt solver concrete constraints feedback.step depth)
      searches.concrete error searchToo) : ¬error.IsMisuse := by
  have found : feedback.verdict ≠ .noneFound := by
    rw [possible]
    exact nofun
  exact Search.not_isMisuse_of_fails_evaluateAt inStep.hereToo.symm
    (Search.found_of_runs_evaluate searched found).1 fails

/-- So a refinement that goes on from there does not end because a search is misused. -/
theorem InStep.not_isMisuse {stage : Stage}
    (inStep : InStep abstract stage.depth stage.rounds searches)
    (refines : Refines solver abstract concrete stage searches (.error error) searches') :
    ¬error.IsMisuse := by
  generalize isError : Except.error error = result at refines
  induction refines with
  | settled _ _ | confirmed _ _ _ _ => contradiction
  | failed failed =>
      obtain rfl := Except.error.inj isError
      exact inStep.not_isMisuse_of_fails_evaluate failed
  | stopped searched possible failed =>
      obtain rfl := Except.error.inj isError
      rcases fails_replay_iff.mp failed with ⟨fault, isFault, rfl, _⟩ | ⟨_, _, _, failed, _⟩
      · exact (Witness.rangeFaults_formula _ _ fault isFault).not_isMisuse
      · exact inStep.not_isMisuse_of_fails_evaluateAt searched possible failed
  | unstated _ _ _ _ isFault =>
      obtain rfl := Except.error.inj isError
      exact (Witness.rangeFaults_formula _ _ _ isFault).not_isMisuse
  | refuted searched possible replayed indefinite _ _ ih =>
      obtain ⟨path, searchToo, _, isReplayed, rfl⟩ := runs_replay_iff.mp replayed
      exact ih (inStep.next searched possible isReplayed indefinite) isError

end Refinement

/-- Whatever a solver answers, and wherever it fails, the two searches of a refinement stay in step: at
the beginning of every round both have come to the depth from which it goes on, so neither is asked to
start elsewhere or to go back.  The rounds are at depths in order up to the bound.  Each of them finds
nothing, but for the last one if the answer is about the concrete system: it finds a definite
violation, at the depth of the answer. -/
theorem Refinement.stays_in_step {σ : Type} (solver : Sat.Solver σ) (abstract concrete : Task)
    (start startToo : σ) :
    (∀ depth condition rounds searches,
      Begins solver abstract concrete start startToo depth condition rounds searches →
        InStep abstract depth rounds searches ∧
        (∀ error search, Action.Fails (Search.evaluate solver abstract depth condition)
          searches.abstract error search → ¬error.IsMisuse) ∧
        ∀ feedback search, Action.Runs (Search.evaluate solver abstract depth condition)
          searches.abstract feedback search → feedback.verdict = .possible →
            ∀ constraints error searchToo,
              Action.Fails (Search.evaluateAt solver concrete constraints feedback.step depth)
                searches.concrete error searchToo → ¬error.IsMisuse) ∧
    (∀ report origin, Concludes solver abstract concrete start startToo report origin →
      IsOrdered abstract.configuration.bound report origin) ∧
    (∀ report searches, Action.EndsWith (refine solver abstract concrete)
      ⟨.initial start, .initial startToo⟩ (.ok report) searches →
        ∃ origin, Concludes solver abstract concrete start startToo report origin) ∧
    ∀ error searches, Action.EndsWith (refine solver abstract concrete)
      ⟨.initial start, .initial startToo⟩ (.error error) searches → ¬error.IsMisuse := by
  refine ⟨fun depth condition rounds searches begins => ?_, fun _ _ => Concludes.isOrdered,
    fun _ _ => exists_concludes_of_refine, ?_⟩
  · have inStep := begins.inStep
    exact ⟨inStep, fun _ _ => inStep.not_isMisuse_of_fails_evaluate,
      fun _ _ searched possible _ _ _ => inStep.not_isMisuse_of_fails_evaluateAt searched possible⟩
  · intro error searches ends
    cases validated : (abstract.configuration.validate abstract.system).2 with
    | error refusal =>
        obtain ⟨isRefusal, _⟩ := (endsWith_refine_refused_iff validated).mp ends
        obtain rfl := Except.error.inj isRefusal
        obtain ⟨_, rfl⟩ | ⟨_, isRange, rfl⟩ := Configuration.validate_error validated
        · exact id
        · exact isRange.not_isMisuse
    | ok _ =>
        have refines := (endsWith_refine_iff validated).mp ends
        exact InStep.not_isMisuse inStep_initial refines

/-- Two processes that might go to the target, while in the concrete system only the second one does:
the path of the first one is refuted, and at the same depth that of the second one is confirmed. -/
theorem Refinement.stays_in_step_of_staying :
    let going (guard : Term) : Transition := ⟨0, 1, guard, []⟩
    let staying (l : Nat) : Transition := ⟨l, l, .always, []⟩
    let unknown : Term := .choice (.literal false) (.literal false)
    let abstract : System := ⟨.empty, .empty, [⟨0, [going unknown]⟩, ⟨1, [going unknown]⟩]⟩
    let concrete : System :=
      ⟨.empty, .empty, [⟨0, [staying 0, staying 1]⟩, ⟨1, [going .always]⟩]⟩
    let configuration : Configuration := ⟨.reachability, 1, [0, 1], .any, 1, false, true⟩
    ∃ abstractTask task report searches,
      (Task.build abstract configuration).2 = .ok abstractTask ∧
        (Task.build concrete configuration).2 = .ok task ∧
        Action.EndsWith (refine Sat.splitting abstractTask task) ⟨.initial [], .initial []⟩
          (.ok report) searches ∧
        report.rounds = [⟨1, .noneFound⟩, ⟨1, .definite⟩] ∧ report.feedback.step = 1 ∧
        Concludes Sat.splitting abstractTask task [] [] report .concrete ∧
          IsOrdered 1 report .concrete := by
  intro going staying unknown abstract concrete configuration
  have found : verdictWithin Sat.splitting 3 [] concrete abstract configuration =
      some (.definite, [⟨1, .noneFound⟩, ⟨1, .definite⟩]) := by decide +kernel
  obtain ⟨events, report, checked, _, rounds⟩ := exists_check_of_verdictWithin found
  obtain ⟨task, abstractTask, searches, isTask, isAbstractTask, ends⟩ :=
    exists_check_result_iff.mp ⟨events, checked⟩
  obtain ⟨_, ordered, concluding, _⟩ := stays_in_step Sat.splitting abstractTask task [] []
  obtain ⟨origin, concludes⟩ := concluding report searches ends
  have isOrdered := ordered report origin concludes
  have isLast : report.rounds.getLast? = some ⟨1, .definite⟩ := by
    rw [rounds]
    rfl
  obtain rfl : origin = .concrete := isOrdered.definite_iff.mp ⟨_, isLast, rfl⟩
  have step := isOrdered.final rfl _ isLast
  obtain ⟨_, sameConfiguration, _⟩ := Task.build_ok isAbstractTask
  rw [sameConfiguration] at isOrdered
  exact ⟨abstractTask, task, report, searches, isAbstractTask, isTask, ends, rounds, step.symm,
    concludes, isOrdered⟩

end Trivalent
