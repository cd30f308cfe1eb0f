import Mathlib.Tactic.Common
import Trivalent.Proofs.Search.Repeated
import Trivalent.Refinement

/-!
# Rounds of a refinement

What a refinement does in a round: it searches the abstract system, follows the path that it finds in
the concrete one, and excludes it if there is nothing on it.  The rounds that are repeated until there
is an answer are told one by one.
-/

namespace Trivalent.Refinement

open Trivalent.Action

variable {σ : Type} {solver : Sat.Solver σ} {abstract concrete : Task}

theorem runs_onAbstract_iff {α : Type} {action : Action Id (Search σ) α}
    {searches searches' : Refinement σ} {a : α} :
    Runs (onAbstract action) searches a searches' ↔
      ∃ search, Runs action searches.abstract a search ∧ ⟨search, searches.concrete⟩ = searches' :=
  runs_onPart_iff

theorem runs_onConcrete_iff {α : Type} {action : Action Id (Search σ) α}
    {searches searches' : Refinement σ} {a : α} :
    Runs (onConcrete action) searches a searches' ↔
      ∃ search, Runs action searches.concrete a search ∧ ⟨searches.abstract, search⟩ = searches' :=
  runs_onPart_iff

theorem fails_onAbstract_iff {α : Type} {action : Action Id (Search σ) α}
    {searches searches' : Refinement σ} {error : CheckError} :
    Fails (onAbstract action) searches error searches' ↔
      ∃ search, Fails action searches.abstract error search ∧
        ⟨search, searches.concrete⟩ = searches' :=
  fails_onPart_iff

theorem fails_onConcrete_iff {α : Type} {action : Action Id (Search σ) α}
    {searches searches' : Refinement σ} {error : CheckError} :
    Fails (onConcrete action) searches error searches' ↔
      ∃ search, Fails action searches.concrete error search ∧
        ⟨searches.abstract, search⟩ = searches' :=
  fails_onPart_iff

/-- The path of an abstract violation is followed in the concrete system at its depth. -/
theorem runs_replay_iff {feedback answer : Feedback} {start : Nat}
    {searches searches' : Refinement σ} :
    Runs (replay solver concrete feedback start) searches answer searches' ↔
      ∃ path search, Witness.formula concrete.system feedback.witness = .ok path ∧
        Runs (Search.evaluateAt solver concrete [path] feedback.step start) searches.concrete
          answer search ∧ ⟨searches.abstract, search⟩ = searches' := by
  unfold replay
  simp only [runs_bind_iff, runs_ofFault_iff, runs_onConcrete_iff, runs_log_iff, runs_pure_iff]
  constructor
  · rintro ⟨path, _, ⟨isPath, rfl⟩, _, _, ⟨search, found, rfl⟩, _, _, rfl, rfl, rfl⟩
    exact ⟨path, search, isPath, found, rfl⟩
  · rintro ⟨path, search, isPath, found, rfl⟩
    exact ⟨path, searches, ⟨isPath, rfl⟩, answer, _, ⟨search, found, rfl⟩, (), _, rfl, rfl, rfl⟩

/-- A path is not followed to an answer if it is no formula or the search of the concrete system ends
with an error. -/
theorem fails_replay_iff {feedback : Feedback} {start : Nat} {error : CheckError}
    {searches searches' : Refinement σ} :
    Fails (replay solver concrete feedback start) searches error searches' ↔
      (∃ fault, Witness.formula concrete.system feedback.witness = .error fault ∧
        .fault fault = error ∧ searches = searches') ∨
      ∃ path search, Witness.formula concrete.system feedback.witness = .ok path ∧
        Fails (Search.evaluateAt solver concrete [path] feedback.step start) searches.concrete
          error search ∧ ⟨searches.abstract, search⟩ = searches' := by
  unfold replay
  simp only [fails_bind_iff, fails_ofFault_iff, runs_ofFault_iff, fails_onConcrete_iff,
    runs_onConcrete_iff, not_fails_log, not_fails_pure, and_false, exists_false, or_false]
  refine or_congr_right ⟨?_, ?_⟩
  · rintro ⟨path, _, ⟨isPath, rfl⟩, search, failed, rfl⟩
    exact ⟨path, search, isPath, failed, rfl⟩
  · rintro ⟨path, search, isPath, failed, rfl⟩
    exact ⟨path, searches, ⟨isPath, rfl⟩, search, failed, rfl⟩

/-- How a refinement goes on from a stage until it ends. -/
inductive Refines (solver : Sat.Solver σ) (abstract concrete : Task) :
    Stage → Refinement σ → Except CheckError Report → Refinement σ → Prop where
  /-- The feedback on the abstract system is the answer. -/
  | settled {stage : Stage} {searches : Refinement σ} {feedback : Feedback} {search : Search σ}
      (searched : Runs (Search.evaluate solver abstract stage.depth stage.condition)
        searches.abstract feedback search)
      (certain : feedback.verdict ≠ .possible) :
      Refines solver abstract concrete stage searches (.ok ⟨feedback, stage.rounds⟩)
        ⟨search, searches.concrete⟩
  /-- The path leads to a violation in the concrete system. -/
  | confirmed {stage : Stage} {searches after : Refinement σ} {feedback answer : Feedback}
      {search : Search σ}
      (searched : Runs (Search.evaluate solver abstract stage.depth stage.condition)
        searches.abstract feedback search)
      (possible : feedback.verdict = .possible)
      (replayed : Runs (replay solver concrete feedback stage.depth) ⟨search, searches.concrete⟩
        answer after)
      (definite : answer.verdict = .definite) :
      Refines solver abstract concrete stage searches
        (.ok ⟨answer, stage.rounds ++ [⟨feedback.step, answer.verdict⟩]⟩) after
  /-- There is no violation on the path, and it is excluded. -/
  | refuted {stage : Stage} {searches between after : Refinement σ} {feedback answer : Feedback}
      {search : Search σ} {exclusion : Formula} {result : Except CheckError Report}
      (searched : Runs (Search.evaluate solver abstract stage.depth stage.condition)
        searches.abstract feedback search)
      (possible : feedback.verdict = .possible)
      (replayed : Runs (replay solver concrete feedback stage.depth) ⟨search, searches.concrete⟩
        answer between)
      (indefinite : answer.verdict ≠ .definite)
      (isExclusion : Witness.formula abstract.system feedback.witness = .ok exclusion)
      (goesOn : Refines solver abstract concrete
        ⟨feedback.step, exclusion.neg, stage.rounds ++ [⟨feedback.step, answer.verdict⟩]⟩ between
        result after) :
      Refines solver abstract concrete stage searches result after
  /-- The search of the abstract system ends with an error. -/
  | failed {stage : Stage} {searches : Refinement σ} {error : CheckError} {search : Search σ}
      (failed : Fails (Search.evaluate solver abstract stage.depth stage.condition)
        searches.abstract error search) :
      Refines solver abstract concrete stage searches (.error error) ⟨search, searches.concrete⟩
  /-- The path is not followed to an answer. -/
  | stopped {stage : Stage} {searches after : Refinement σ} {feedback : Feedback}
      {search : Search σ} {error : CheckError}
      (searched : Runs (Search.evaluate solver abstract stage.depth stage.condition)
        searches.abstract feedback search)
      (possible : feedback.verdict = .possible)
      (failed : Fails (replay solver concrete feedback stage.depth) ⟨search, searches.concrete⟩
        error after) :
      Refines solver abstract concrete stage searches (.error error) after
  /-- The path cannot be excluded. -/
  | unstated {stage : Stage} {searches after : Refinement σ} {feedback answer : Feedback}
      {search : Search σ} {fault : Fault}
      (searched : Runs (Search.evaluate solver abstract stage.depth stage.condition)
        searches.abstract feedback search)
      (possible : feedback.verdict = .possible)
      (replayed : Runs (replay solver concrete feedback stage.depth) ⟨search, searches.concrete⟩
        answer after)
      (indefinite : answer.verdict ≠ .definite)
      (isFault : Witness.formula abstract.system feedback.witness = .error fault) :
      Refines solver abstract concrete stage searches (.error (.fault fault)) after

/-! ## One round -/

variable {stage next : Stage} {searches searches' : Refinement σ} {report : Report}
  {error : CheckError}

/-- A round that has an answer settles the check, or confirms a path. -/
theorem refines_of_runs_round_inr
    (runs : Runs (round solver abstract concrete stage) searches (.inr report) searches') :
    Refines solver abstract concrete stage searches (.ok report) searches' := by
  obtain ⟨feedback, between, searched, runs⟩ := runs_bind_iff.mp runs
  obtain ⟨search, found, rfl⟩ := runs_onAbstract_iff.mp searched
  rw [runs_ite_iff] at runs
  split at runs
  · rename_i certain
    obtain ⟨isReport, rfl⟩ := runs_pure_iff.mp runs
    obtain rfl := Sum.inr.inj isReport
    exact .settled found certain
  rename_i possible
  obtain ⟨answer, after, replayed, runs⟩ := runs_bind_iff.mp runs
  simp only at runs
  rw [runs_ite_iff] at runs
  split at runs
  · rename_i definite
    obtain ⟨isReport, rfl⟩ := runs_pure_iff.mp runs
    obtain rfl := Sum.inr.inj isReport
    exact .confirmed found (not_not.mp possible) replayed definite
  · obtain ⟨exclusion, _, _, runs⟩ := runs_bind_iff.mp runs
    obtain ⟨⟨⟩, _⟩ := runs_pure_iff.mp runs

/-- A round that goes on has refuted a path, which it excludes. -/
theorem refines_of_runs_round_inl {result : Except CheckError Report} {after : Refinement σ}
    (runs : Runs (round solver abstract concrete stage) searches (.inl next) searches')
    (goesOn : Refines solver abstract concrete next searches' result after) :
    Refines solver abstract concrete stage searches result after := by
  obtain ⟨feedback, between, searched, runs⟩ := runs_bind_iff.mp runs
  obtain ⟨search, found, rfl⟩ := runs_onAbstract_iff.mp searched
  rw [runs_ite_iff] at runs
  split at runs
  · obtain ⟨⟨⟩, _⟩ := runs_pure_iff.mp runs
  rename_i possible
  obtain ⟨answer, between, replayed, runs⟩ := runs_bind_iff.mp runs
  simp only at runs
  rw [runs_ite_iff] at runs
  split at runs
  · obtain ⟨⟨⟩, _⟩ := runs_pure_iff.mp runs
  · rename_i indefinite
    obtain ⟨exclusion, _, excluded, runs⟩ := runs_bind_iff.mp runs
    obtain ⟨isExclusion, rfl⟩ := runs_ofFault_iff.mp excluded
    obtain ⟨isNext, rfl⟩ := runs_pure_iff.mp runs
    obtain rfl := Sum.inl.inj isNext
    exact .refuted found (not_not.mp possible) replayed indefinite isExclusion goesOn

theorem refines_of_fails_round
    (fails : Fails (round solver abstract concrete stage) searches error searches') :
    Refines solver abstract concrete stage searches (.error error) searches' := by
  rcases fails_bind_iff.mp fails with stopped | ⟨feedback, between, searched, fails⟩
  · obtain ⟨search, failed, rfl⟩ := fails_onAbstract_iff.mp stopped
    exact .failed failed
  obtain ⟨search, found, rfl⟩ := runs_onAbstract_iff.mp searched
  rw [fails_ite_iff] at fails
  split at fails
  · exact absurd fails not_fails_pure
  rename_i possible
  rcases fails_bind_iff.mp fails with failed | ⟨answer, between, replayed, fails⟩
  · exact .stopped found (not_not.mp possible) failed
  simp only at fails
  rw [fails_ite_iff] at fails
  split at fails
  · exact absurd fails not_fails_pure
  rename_i indefinite
  rcases fails_bind_iff.mp fails with failed | ⟨exclusion, _, _, fails⟩
  · obtain ⟨fault, isFault, rfl, rfl⟩ := fails_ofFault_iff.mp failed
    exact .unstated found (not_not.mp possible) replayed indefinite isFault
  · exact absurd fails not_fails_pure

/-! ## Rounds that are repeated -/

theorem runs_round_of_certain {feedback : Feedback} {search : Search σ}
    (searched : Runs (Search.evaluate solver abstract stage.depth stage.condition)
      searches.abstract feedback search) (certain : feedback.verdict ≠ .possible) :
    Runs (round solver abstract concrete stage) searches (.inr ⟨feedback, stage.rounds⟩)
      ⟨search, searches.concrete⟩ := by
  refine runs_bind_iff.mpr ⟨feedback, _, runs_onAbstract_iff.mpr ⟨search, searched, rfl⟩, ?_⟩
  rw [if_pos certain]
  exact runs_pure_iff.mpr ⟨rfl, rfl⟩

/-- A round whose search finds a possible violation goes on with its path. -/
theorem round_of_possible {feedback : Feedback} {search : Search σ}
    (searched : Runs (Search.evaluate solver abstract stage.depth stage.condition)
      searches.abstract feedback search) (possible : feedback.verdict = .possible) :
    let goesOn : Action Id (Refinement σ) (Stage ⊕ Report) := do
      let answer ← replay solver concrete feedback stage.depth
      let rounds := stage.rounds ++ [⟨feedback.step, answer.verdict⟩]
      if answer.verdict = .definite then return .inr ⟨answer, rounds⟩
      else
        let path ← .ofFault (Witness.formula abstract.system feedback.witness)
        return .inl ⟨feedback.step, path.neg, rounds⟩
    (∀ next after, Runs goesOn ⟨search, searches.concrete⟩ next after →
      Runs (round solver abstract concrete stage) searches next after) ∧
    ∀ error after, Fails goesOn ⟨search, searches.concrete⟩ error after →
      Fails (round solver abstract concrete stage) searches error after := by
  have evaluated := runs_onAbstract_iff.mpr ⟨search, searched, rfl⟩
  constructor
  · intro next after runs
    refine runs_bind_iff.mpr ⟨feedback, _, evaluated, ?_⟩
    rw [if_neg (not_not.mpr possible)]
    exact runs
  · intro error after fails
    refine fails_bind_iff.mpr (.inr ⟨feedback, _, evaluated, ?_⟩)
    rw [if_neg (not_not.mpr possible)]
    exact fails

/-- Rounds that are repeated come to what is told of them. -/
theorem repeats_round_iff {result : Except CheckError Report} :
    Repeats (round solver abstract concrete) stage searches result searches' ↔
      Refines solver abstract concrete stage searches result searches' := by
  constructor
  · intro repeats
    induction repeats with
    | ends runs => exact refines_of_runs_round_inr runs
    | fails fails => exact refines_of_fails_round fails
    | goesOn runs _ ih => exact refines_of_runs_round_inl runs ih
  · intro refines
    induction refines with
    | settled searched certain => exact .ends (runs_round_of_certain searched certain)
    | confirmed searched possible replayed definite =>
        refine .ends ((round_of_possible searched possible).1 _ _ ?_)
        refine runs_bind_iff.mpr ⟨_, _, replayed, ?_⟩
        simp only [if_pos definite]
        exact runs_pure_iff.mpr ⟨rfl, rfl⟩
    | refuted searched possible replayed indefinite isExclusion _ ih =>
        refine .goesOn ((round_of_possible searched possible).1 _ _ ?_) ih
        refine runs_bind_iff.mpr ⟨_, _, replayed, ?_⟩
        simp only [if_neg indefinite]
        exact runs_bind_iff.mpr
          ⟨_, _, runs_ofFault_iff.mpr ⟨isExclusion, rfl⟩, runs_pure_iff.mpr ⟨rfl, rfl⟩⟩
    | failed failed =>
        exact .fails (fails_bind_iff.mpr (.inl (fails_onAbstract_iff.mpr ⟨_, failed, rfl⟩)))
    | stopped searched possible failed =>
        refine .fails ((round_of_possible searched possible).2 _ _ ?_)
        exact fails_bind_iff.mpr (.inl failed)
    | unstated searched possible replayed indefinite isFault =>
        refine .fails ((round_of_possible searched possible).2 _ _ ?_)
        refine fails_bind_iff.mpr (.inr ⟨_, _, replayed, ?_⟩)
        simp only [if_neg indefinite]
        exact fails_bind_iff.mpr (.inl (fails_ofFault_iff.mpr ⟨_, isFault, rfl, rfl⟩))

/-- A check of two systems ends as its rounds do, if the configuration fits the abstract one. -/
theorem endsWith_refine_iff {result : Except CheckError Report}
    (validated : (abstract.configuration.validate abstract.system).2 = .ok ()) :
    EndsWith (refine solver abstract concrete) searches result searches' ↔
      Refines solver abstract concrete .first searches result searches' := by
  rw [refine, endsWith_ofLogged_ok validated, endsWith_repeatUntil_iff, repeats_round_iff]

/-- Otherwise it is refused. -/
theorem endsWith_refine_refused_iff {result : Except CheckError Report}
    (refused : (abstract.configuration.validate abstract.system).2 = .error error) :
    EndsWith (refine solver abstract concrete) searches result searches' ↔
      result = .error error ∧ searches = searches' := by
  rw [refine, endsWith_ofLogged_error refused]

/-- So a refinement that ends with a report was not refused. -/
theorem refines_of_endsWith_ok
    (ends : EndsWith (refine solver abstract concrete) searches (.ok report) searches') :
    (abstract.configuration.validate abstract.system).2 = .ok () ∧
      Refines solver abstract concrete .first searches (.ok report) searches' := by
  cases validated : (abstract.configuration.validate abstract.system).2 with
  | error error => exact nomatch ((endsWith_refine_refused_iff validated).mp ends).1
  | ok _ => exact ⟨rfl, (endsWith_refine_iff validated).mp ends⟩

theorem Refines.unique {result result' : Except CheckError Report} {after after' : Refinement σ}
    (refines : Refines solver abstract concrete stage searches result after)
    (refinesToo : Refines solver abstract concrete stage searches result' after') :
    result = result' ∧ after = after' :=
  (repeats_round_iff.mpr refines).unique (repeats_round_iff.mpr refinesToo)

end Trivalent.Refinement
