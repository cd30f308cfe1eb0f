import Trivalent.Proofs.Refinement.Round
import Trivalent.Proofs.Search.Single

/-!
# Violations that are followed

What a refinement follows in the concrete system is the least possible violation of the abstract
system that its conditions leave.  Its witness is read from a valuation, and the formulas of its
path say that the states of the valuation cover those of a run.
-/

namespace Trivalent

/-- The witness of a violation is read from a valuation that reads unknown predicates as either
value. -/
structure Task.IsWitnessed (task : Task) (feedback : Feedback) (u : Valuation) : Prop where
  room : feedback.step < Word.limit
  unrolls : task.Unrolls feedback.step u
  reaches : task.Reaches feedback.step u
  reads : u .wildcard = true
  decoded : Witness.decode task.system task.configuration.fairness u feedback.step =
    .ok feedback.witness

namespace Refinement

open Trivalent.Action

variable {σ : Type}

/-- A violation of the abstract system that is possible under a condition, from a depth on, and
where the search has come to with it. -/
structure Candidate (abstract : Task) (condition : Valuation → Prop) (depth : Nat)
    (feedback : Feedback) (search : Search σ) : Prop where
  after : depth ≤ feedback.step
  inside : feedback.step ≤ abstract.configuration.bound
  least : ∀ m, depth ≤ m → m < feedback.step →
    ¬abstract.Possible condition (abstract.Reaches m) m true
  witnessed : ∃ u, abstract.IsWitnessed feedback u ∧ condition u
  indefinite : ¬abstract.Possible condition (abstract.Reaches feedback.step) feedback.step false
  knows : search.Knows abstract condition
  here : search.step = feedback.step

variable {solver : Sat.Solver σ} {abstract concrete : Task} {condition : Valuation → Prop}
  {depth : Nat} {feedback answer : Feedback} {search : Search σ}

/-- What a search of the abstract system finds possible is a candidate. -/
theorem candidate_of_runs (built : abstract.WellBuilt) (sound : solver.Sound)
    {before : Search σ} (resumes : before.Resumes abstract condition) {f : Formula}
    {further : Valuation → Prop} (meaning : f.Expresses further)
    (within : depth ≤ abstract.configuration.bound + 1)
    (runs : Runs (Search.evaluate solver abstract depth f) before feedback search)
    (possible : feedback.verdict = .possible) :
    Candidate abstract (fun v => condition v ∧ further v) depth feedback search := by
  obtain ⟨answers, knows, reached⟩ := Search.runs_evaluate built sound resumes meaning within runs
  cases answers with
  | exhausted none _ => exact absurd (none ▸ possible) nofun
  | found n after inside least finds =>
      obtain rfl := finds.step
      rw [Feedback.depth_of_found finds.found] at reached
      obtain ⟨u, unrolls, holds, reaches, reads, decoded⟩ := finds.witness
      have room := knows.room
      rw [reached] at room
      refine ⟨after, inside, least, ⟨u, ⟨room, unrolls, reaches, reads, decoded⟩, holds⟩, ?_, knows,
        reached⟩
      rw [← finds.definite_iff, possible]
      exact nofun

/-- The path of a violation is followed in the concrete system: there is a violation of the same
length on it, or there is none. -/
theorem answersAt_of_replay (fits : abstract.system.Fits) (built : concrete.WellBuilt)
    (sound : solver.Sound) {u : Valuation} (witnessed : abstract.IsWitnessed feedback u)
    {searchToo : Search σ} (resumes : searchToo.Resumes concrete condition)
    {searches : Refinement σ}
    (replayed : Runs (replay solver concrete feedback depth) ⟨search, searchToo⟩ answer searches) :
    concrete.AnswersAt condition (fun v => (∀ t ≤ feedback.step,
        System.Covers abstract.system concrete.system (u.stateAt abstract.system t)
          (v.stateAt concrete.system t)) ∧ concrete.Reaches feedback.step v) feedback.step answer ∧
      searches.abstract = search ∧ searches.concrete.Knows concrete condition ∧
        searches.concrete.step = feedback.step := by
  obtain ⟨path, after, isPath, isReplayed, rfl⟩ := runs_replay_iff.mp replayed
  obtain ⟨path', isPathToo, follows⟩ :=
    Witness.denotes_formula fits built.fits witnessed.decoded
  obtain rfl := Except.ok.inj (isPath.symm.trans isPathToo)
  obtain ⟨answers, knows, here⟩ := Search.runs_evaluateAt built sound resumes
    (fun v => by rw [List.forall_mem_singleton, follows v]) witnessed.room isReplayed
  exact ⟨answers, rfl, knows, here⟩

/-- A path is excluded with all runs that stay on it. -/
theorem expresses_exclusion (fits : abstract.system.Fits) {u : Valuation}
    (witnessed : abstract.IsWitnessed feedback u) {exclusion : Formula}
    (isExclusion : Witness.formula abstract.system feedback.witness = .ok exclusion) :
    exclusion.neg.Expresses fun v => ¬∀ t ≤ feedback.step, System.Covers abstract.system
      abstract.system (u.stateAt abstract.system t) (v.stateAt abstract.system t) := by
  obtain ⟨exclusion', isExclusionToo, excludes⟩ :=
    Witness.denotes_formula fits fits witnessed.decoded
  obtain rfl := Except.ok.inj (isExclusion.symm.trans isExclusionToo)
  intro v
  rw [Formula.eval_neg, Bool.not_eq_true', ← Bool.not_eq_true, excludes v]

end Refinement

end Trivalent
