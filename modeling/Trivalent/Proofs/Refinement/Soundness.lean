import Trivalent.Proofs.Refinement.Evaluation
import Trivalent.Proofs.Refinement.Exclusion
import Trivalent.Proofs.Search.Exact

/-!
# What a refinement that finds nothing tells

If an abstract system has a violation for every violation of a concrete one, and a check of the two
finds nothing, then every violation of the concrete system continues a path that was refuted at a
smaller depth.  A target that a run has met is met at that depth, so for targets there is no
violation.  A loop may be closed later than at the depth where its path was refuted, so for loops
there may be one.
-/

namespace Trivalent

namespace System

variable {abstract concrete : System} {configuration : Configuration} {rounds : List Round}

/-- Of two states that cover each other both meet the target or neither does. -/
theorem Covers.meets_iff {a c : State} (covers : Covers abstract concrete a c)
    (valid : ∀ p ∈ configuration.processes, p < abstract.processes.length)
    (validToo : ∀ p ∈ configuration.processes, p < concrete.processes.length) :
    configuration.Meets a ↔ configuration.Meets c :=
  Configuration.meets_iff fun p member =>
    covers.location p (valid p member) (validToo p member)

/-- A sequence of states of the concrete system goes on behind the path of a violation that was
refuted at a depth below `n`. -/
def ContinuesRefuted (abstract concrete : System) (configuration : Configuration)
    (rounds : List Round) (n : Nat) (c : Nat → State) : Prop :=
  ∃ j < n, ⟨j, .noneFound⟩ ∈ rounds ∧
    ∃ a, abstract.IsSpurious concrete configuration j a ∧
      ∀ t ≤ j, Covers abstract concrete (a t) (c t)

/-- A violation whose abstract counterpart is excluded continues a refuted path. -/
theorem Excluded.continuesRefuted {n : Nat} {a c : Nat → State}
    (excluded : Excluded abstract concrete configuration rounds n a)
    (violates : concrete.Violates configuration true n c)
    (covers : ∀ t ≤ n, Covers abstract concrete (a t) (c t)) :
    ContinuesRefuted abstract concrete configuration rounds n c := by
  rcases excluded with ⟨j, within, isRound, path, spurious, follows⟩
  have onPath : ∀ t ≤ j, Covers abstract concrete (path t) (c t) := by
    intro t before
    exact (follows t before).trans (covers t (Nat.le_trans before within))
      (fun _ inside _ => inside) fun _ i _ isFirst _ => ⟨i, isFirst⟩
  have notHere : j ≠ n := by
    rintro rfl
    exact spurious.refuted c violates onPath
  exact ⟨j, Nat.lt_of_le_of_ne within notHere, isRound, path, spurious, onPath⟩

/-- No run continues the refuted path to a target, since it is at the target there itself. -/
theorem not_continuesRefuted (reachability : configuration.property = .reachability)
    (valid : ∀ p ∈ configuration.processes, p < abstract.processes.length)
    (validToo : ∀ p ∈ configuration.processes, p < concrete.processes.length) {n : Nat}
    {c : Nat → State} (run : concrete.IsRun true n c) :
    ¬ContinuesRefuted abstract concrete configuration rounds n c := by
  rintro ⟨j, before, _, path, spurious, onPath⟩
  have violates := (violates_reachability_iff reachability).mp spurious.violates
  have meets := ((onPath j (Nat.le_refl j)).meets_iff valid validToo).mp violates.2
  apply spurious.refuted c _ onPath
  exact (violates_reachability_iff reachability).mpr ⟨run.mono (Nat.le_of_lt before), meets⟩

end System

/-! ## Checks of two systems -/

section Checks

variable {σ : Type} {solver : Sat.Solver σ} {start : σ} {abstract concrete : System}
  {configuration : Configuration} {events : List Event} {report : Report}

/-- When a check of two systems finds nothing, every violation of the abstract system is excluded. -/
theorem excluded_of_check (numbered : abstract.Numbered) (numberedToo : concrete.Numbered)
    (sound : solver.Sound)
    (validToo : ∀ p ∈ configuration.processes, p < concrete.processes.length)
    (checked : check solver start concrete (some abstract) configuration =
      some (.ok (events, .ok report))) (noneFound : report.feedback.verdict = .noneFound) :
    (configuration.validate abstract).2 = .ok () ∧
      ∀ n ≤ configuration.bound, ∀ a, abstract.Violates configuration true n a →
        System.Excluded abstract concrete configuration report.rounds n a := by
  obtain ⟨task, abstractTask, searches, isTask, isAbstractTask, ends⟩ :=
    exists_check_result_iff.mp ⟨events, checked⟩
  have builtConcrete := Task.wellBuilt_of_build numberedToo validToo isTask
  obtain ⟨rfl, same, _⟩ := Task.build_ok isTask
  obtain ⟨rfl, rfl, _⟩ := Task.build_ok isAbstractTask
  obtain ⟨isValid, refines⟩ := Refinement.refines_of_endsWith_ok ends
  have valid := Configuration.valid_of_validate isValid
  have builtAbstract := Task.wellBuilt_of_build numbered valid isAbstractTask
  obtain ⟨room, excluded⟩ := Refinement.excluded_of_noneFound builtAbstract builtConcrete same sound
    refines noneFound (Search.resumes_initial start) (Search.resumes_initial start)
    Formula.expresses_true (Nat.zero_le _) Refinement.establishes_initial
  constructor
  · exact isValid
  · intro n inside a violates
    have here : n < Word.limit := Nat.lt_of_le_of_lt (Nat.le_succ_of_le inside) room
    obtain ⟨v, unrolls, reaches, reads, agree⟩ :=
      Task.exists_unrolls_of_violates builtAbstract here violates
    exact (excluded n inside v unrolls reaches reads).congr agree

end Checks

end Trivalent
