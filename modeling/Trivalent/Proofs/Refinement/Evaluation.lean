import Trivalent.Proofs.Refinement.Round
import Trivalent.Proofs.Task.Basic

/-!
# How checks end

A check ends as the search of the system does, or as the refinement does if there is an abstract
system too.  A refinement that takes few rounds is found by recursion on their number.
-/

namespace Trivalent

open Trivalent.Action

variable {σ : Type} {solver : Sat.Solver σ} {start : σ} {concrete abstract : System}
  {configuration : Configuration}

/-! ## Preparation -/

theorem prepare_alone_eq_ok {task : Task}
    (isTask : (Task.build concrete configuration).2 = .ok task) :
    prepare concrete none configuration =
      .ok ⟨none, task, (Task.build concrete configuration).1⟩ := by
  unfold prepare
  generalize Task.build concrete configuration = build at isTask ⊢
  obtain ⟨encoded, _⟩ := build
  obtain rfl := isTask
  rfl

theorem prepare_eq_ok {task abstractTask : Task}
    (isTask : (Task.build concrete configuration).2 = .ok task)
    (isAbstractTask : (Task.build abstract configuration).2 = .ok abstractTask) :
    prepare concrete (some abstract) configuration = .ok ⟨some abstractTask, task,
      (Task.build abstract configuration).1 ++ (Task.build concrete configuration).1⟩ := by
  unfold prepare
  dsimp only
  generalize Task.build concrete configuration = build at isTask ⊢
  generalize Task.build abstract configuration = buildToo at isAbstractTask ⊢
  obtain ⟨encoded, _⟩ := build
  obtain ⟨encodedToo, _⟩ := buildToo
  obtain rfl := isTask
  obtain rfl := isAbstractTask
  rfl

/-- Systems that are encoded have tasks. -/
theorem prepare_eq_ok_iff {preparation : Preparation} :
    prepare concrete (some abstract) configuration = .ok preparation ↔
      ∃ task abstractTask, (Task.build concrete configuration).2 = .ok task ∧
        (Task.build abstract configuration).2 = .ok abstractTask ∧
          preparation = ⟨some abstractTask, task,
            (Task.build abstract configuration).1 ++ (Task.build concrete configuration).1⟩ := by
  constructor
  · intro prepared
    obtain ⟨abstractTask, isAbstractTask, later⟩ := bind_eq_ok_iff.mp prepared
    obtain ⟨task, isTask, _⟩ := bind_eq_ok_iff.mp later
    exact ⟨task, abstractTask, isTask, isAbstractTask,
      Except.ok.inj (prepared.symm.trans (prepare_eq_ok isTask isAbstractTask))⟩
  · rintro ⟨task, abstractTask, isTask, isAbstractTask, rfl⟩
    exact prepare_eq_ok isTask isAbstractTask

theorem prepare_alone_eq_ok_iff {preparation : Preparation} :
    prepare concrete none configuration = .ok preparation ↔
      ∃ task, (Task.build concrete configuration).2 = .ok task ∧
        preparation = ⟨none, task, (Task.build concrete configuration).1⟩ := by
  constructor
  · intro prepared
    obtain ⟨task, isTask, _⟩ := bind_eq_ok_iff.mp prepared
    exact ⟨task, isTask, Except.ok.inj (prepared.symm.trans (prepare_alone_eq_ok isTask))⟩
  · rintro ⟨task, isTask, rfl⟩
    exact prepare_alone_eq_ok isTask

/-! ## Results -/

/-- A check of one system ends as its search does if it has a task. -/
theorem exists_check_alone_iff {result : Except CheckError Report} :
    (∃ events, check solver start concrete none configuration = some (.ok (events, result))) ↔
      ∃ task, (Task.build concrete configuration).2 = .ok task ∧
        (checkAlone solver task (.initial start)).result = result := by
  unfold check
  constructor
  · rintro ⟨events, checked⟩
    cases prepared : prepare concrete none configuration with
    | error fault =>
        rw [prepared] at checked
        cases checked
    | ok preparation =>
        obtain ⟨task, isTask, rfl⟩ := prepare_alone_eq_ok_iff.mp prepared
        rw [prepared] at checked
        obtain ⟨_, result⟩ := Prod.mk.inj (Except.ok.inj (Option.some.inj checked))
        exact ⟨task, isTask, result⟩
  · rintro ⟨task, isTask, rfl⟩
    rw [prepare_alone_eq_ok isTask]
    exact ⟨_, rfl⟩

/-- A check of two systems ends as the refinement does if both have tasks. -/
theorem exists_check_result_iff {result : Except CheckError Report} :
    (∃ events, check solver start concrete (some abstract) configuration =
        some (.ok (events, result))) ↔
      ∃ task abstractTask searches, (Task.build concrete configuration).2 = .ok task ∧
        (Task.build abstract configuration).2 = .ok abstractTask ∧
          EndsWith (Refinement.refine solver abstractTask task) ⟨.initial start, .initial start⟩
            result searches := by
  unfold check
  constructor
  · rintro ⟨events, checked⟩
    cases prepared : prepare concrete (some abstract) configuration with
    | error fault =>
        rw [prepared] at checked
        cases checked
    | ok preparation =>
        obtain ⟨task, abstractTask, isTask, isAbstractTask, rfl⟩ := prepare_eq_ok_iff.mp prepared
        rw [prepared] at checked
        obtain ⟨⟨made, searches, later⟩, refines, same⟩ := Option.bind_eq_some_iff.mp checked
        obtain ⟨_, rfl⟩ := Prod.mk.inj (Except.ok.inj (Option.some.inj same))
        exact ⟨task, abstractTask, searches, isTask, isAbstractTask, later, refines⟩
  · rintro ⟨task, abstractTask, searches, isTask, isAbstractTask, later, refines⟩
    rw [prepare_eq_ok isTask isAbstractTask]
    exact ⟨_, Option.bind_eq_some_iff.mpr ⟨_, refines, rfl⟩⟩

/-! ## A given number of rounds -/

/-- The verdict and the rounds of a check of two systems that takes fewer than `count` rounds. -/
def Refinement.verdictWithin (solver : Sat.Solver σ) (count : Nat) (start : σ)
    (concrete abstract : System) (configuration : Configuration) : Option (Verdict × List Round) :=
  match (Task.build concrete configuration).2, (Task.build abstract configuration).2,
      (configuration.validate abstract).2 with
  | .ok task, .ok abstractTask, .ok () =>
      match repeatWithin (round solver abstractTask task) count .first
          ⟨.initial start, .initial start⟩ with
      | some (.ok report, _) => some (report.feedback.verdict, report.rounds)
      | _ => none
  | _, _, _ => none

/-- A check of two systems that ends within a number of rounds has the verdict found there. -/
theorem exists_check_of_verdictWithin {count : Nat} {verdict : Verdict} {rounds : List Round}
    (found : Refinement.verdictWithin solver count start concrete abstract configuration =
      some (verdict, rounds)) :
    ∃ events report, check solver start concrete (some abstract) configuration =
      some (.ok (events, .ok report)) ∧ report.feedback.verdict = verdict ∧
        report.rounds = rounds := by
  unfold Refinement.verdictWithin at found
  split at found
  · rename_i task abstractTask isTask isAbstractTask valid
    split at found
    · rename_i report searches ends
      obtain ⟨rfl, rfl⟩ := Prod.mk.inj (Option.some.inj found)
      obtain ⟨rfl, rfl, _⟩ := Task.build_ok isAbstractTask
      have refines := Refinement.repeats_round_iff.mp (repeats_of_within ends)
      obtain ⟨events, checked⟩ := exists_check_result_iff.mpr ⟨task, abstractTask, searches, isTask,
        isAbstractTask, (Refinement.endsWith_refine_iff valid).mpr refines⟩
      exact ⟨events, report, checked, rfl, rfl⟩
    · contradiction
  · contradiction

end Trivalent
