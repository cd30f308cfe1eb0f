import Trivalent.Proofs.Refinement.Candidate
import Trivalent.Proofs.Refinement.Paths
import Trivalent.Proofs.Witness.Pattern

/-!
# Rounds that follow one another

The rounds of a refinement are told by the violations of the abstract system that are followed, one
after the other, and by how it ends.  The conditions of the search of the abstract system exclude the
paths of all rounds so far, hence no violation that it finds repeats an earlier one, and there are no
more rounds at a depth than paths.
-/

namespace Trivalent

namespace Task

variable {task : Task} {feedback earlier : Feedback} {u v : Valuation}

theorem IsWitnessed.length_witness (witnessed : task.IsWitnessed feedback u)
    (fits : task.system.Fits) : feedback.witness.length = feedback.step + 1 := by
  have decoded := witnessed.decoded
  rw [Witness.decode_of_fits fits] at decoded
  rw [← Except.ok.inj decoded, List.length_map, List.length_range]

/-- A valuation that leaves the path of an earlier violation shows one that does not repeat it. -/
theorem IsWitnessed.not_repeats (fits : task.system.Fits) (witnessed : task.IsWitnessed feedback u)
    (witnessedToo : task.IsWitnessed earlier v) (notAfter : earlier.step ≤ feedback.step)
    (off : ¬Holds u (Witness.formula task.system earlier.witness)) :
    ¬earlier.Repeats feedback := by
  rw [Feedback.repeats_iff fits witnessedToo.decoded witnessed.decoded notAfter]
  rwa [(Witness.denotes_formula fits fits witnessedToo.decoded).holds_iff] at off

end Task

namespace Refinement

open Trivalent.Action

variable {σ : Type}

/-! ## Rounds -/

/-- How a refinement goes on from a depth: the violations of the abstract system that it follows in
the concrete one, and its answer or the error that it ends with. -/
inductive Rounds (solver : Sat.Solver σ) (abstract concrete : Task) :
    (depth : Nat) → (condition : Formula) → (searches : Refinement σ) → List Feedback →
      Except CheckError Feedback → Prop where
  /-- The feedback on the abstract system is the answer. -/
  | settled {depth : Nat} {condition : Formula} {searches between : Refinement σ}
      {feedback : Feedback}
      (searched : Runs (onAbstract (Search.evaluate solver abstract depth condition)) searches
        feedback between)
      (certain : feedback.verdict ≠ .possible) :
      Rounds solver abstract concrete depth condition searches [] (.ok feedback)
  /-- The path leads to a violation in the concrete system. -/
  | confirmed {depth : Nat} {condition : Formula} {searches between after : Refinement σ}
      {feedback answer : Feedback}
      (searched : Runs (onAbstract (Search.evaluate solver abstract depth condition)) searches
        feedback between)
      (possible : feedback.verdict = .possible)
      (replayed : Runs (replay solver concrete feedback depth) between answer after)
      (definite : answer.verdict = .definite) :
      Rounds solver abstract concrete depth condition searches [feedback] (.ok answer)
  /-- The path cannot be followed to an answer. -/
  | stopped {depth : Nat} {condition : Formula} {searches between after : Refinement σ}
      {feedback : Feedback} {error : CheckError}
      (searched : Runs (onAbstract (Search.evaluate solver abstract depth condition)) searches
        feedback between)
      (possible : feedback.verdict = .possible)
      (failed : Fails (replay solver concrete feedback depth) between error after) :
      Rounds solver abstract concrete depth condition searches [feedback] (.error error)
  /-- There is no violation on the path, and it is excluded. -/
  | refuted {depth : Nat} {condition exclusion : Formula} {searches between after : Refinement σ}
      {feedback answer : Feedback} {found : List Feedback} {ending : Except CheckError Feedback}
      (searched : Runs (onAbstract (Search.evaluate solver abstract depth condition)) searches
        feedback between)
      (possible : feedback.verdict = .possible)
      (replayed : Runs (replay solver concrete feedback depth) between answer after)
      (indefinite : answer.verdict ≠ .definite)
      (isExclusion : Witness.formula abstract.system feedback.witness = .ok exclusion)
      (goesOn : Rounds solver abstract concrete feedback.step exclusion.neg after found ending) :
      Rounds solver abstract concrete depth condition searches (feedback :: found) ending

/-- A refinement that ended in some way has a result: the same error, or a report with the same
answer and with rounds at some depths. -/
inductive Reports (steps : List Nat) : Except CheckError Feedback → Except CheckError Report → Prop
  where
  | answer (report : Report) (isRound : report.rounds.map Round.step = steps) :
      Reports steps (.ok report.feedback) (.ok report)
  | error (error : CheckError) : Reports steps (.error error) (.error error)

/-! ## What a refinement knows on its way -/

/-- What a refinement knows when it is about to search the abstract system from a depth under a
further condition, behind the rounds for some violations. -/
structure Underway (abstract concrete : Task) (condition : Valuation → Prop) (depth : Nat)
    (f : Formula) (searches : Refinement σ) (earlier : List Feedback) : Prop where
  resumes : searches.abstract.Resumes abstract condition
  resumesToo : searches.concrete.Resumes concrete fun _ => True
  here : searches.abstract.step = depth
  hereToo : searches.concrete.step = depth
  within : depth ≤ abstract.configuration.bound
  notAfter : ∀ e ∈ earlier, e.step ≤ depth
  witnessed : ∀ e ∈ earlier, ∃ u, abstract.IsWitnessed e u
  excluded : ∀ e ∈ earlier, ∀ v, condition v → f.eval v = true →
    ¬Holds v (Witness.formula abstract.system e.witness)
  distinct : earlier.Pairwise fun e later => ¬e.Repeats later

variable {solver : Sat.Solver σ} {abstract concrete : Task} {condition : Valuation → Prop}
  {depth : Nat} {f : Formula} {searches : Refinement σ} {earlier : List Feedback}
  {feedback : Feedback} {search : Search σ}

/-- What the search of the abstract system finds possible is a candidate. -/
theorem Underway.candidate (built : abstract.WellBuilt) (sound : solver.Sound)
    (underway : Underway abstract concrete condition depth f searches earlier)
    (runs : Runs (Search.evaluate solver abstract depth f) searches.abstract feedback search)
    (possible : feedback.verdict = .possible) :
    Candidate abstract (fun v => condition v ∧ f.eval v = true) depth feedback search :=
  candidate_of_runs built sound underway.resumes (fun _ => Iff.rfl)
    (Nat.le_succ_of_le underway.within) runs possible

/-- A candidate repeats no violation of an earlier round. -/
theorem Underway.not_repeats (built : abstract.WellBuilt)
    (underway : Underway abstract concrete condition depth f searches earlier)
    (candidate : Candidate abstract (fun v => condition v ∧ f.eval v = true) depth feedback search) :
    ∀ e ∈ earlier, ¬e.Repeats feedback := by
  intro e member
  obtain ⟨u, witnessed, holds, further⟩ := candidate.witnessed
  obtain ⟨v, witnessedToo⟩ := underway.witnessed e member
  exact witnessed.not_repeats built.fits witnessedToo
    (Nat.le_trans (underway.notAfter e member) candidate.after)
    (underway.excluded e member u holds further)

theorem Underway.distinct_append (built : abstract.WellBuilt)
    (underway : Underway abstract concrete condition depth f searches earlier)
    (candidate : Candidate abstract (fun v => condition v ∧ f.eval v = true) depth feedback search) :
    (earlier ++ [feedback]).Pairwise fun e later => ¬e.Repeats later := by
  refine List.pairwise_append.mpr ⟨underway.distinct, List.pairwise_singleton _ _, ?_⟩
  intro e member later isLater
  obtain rfl := List.mem_singleton.mp isLater
  exact underway.not_repeats built candidate e member

theorem Underway.witnessed_append
    (underway : Underway abstract concrete condition depth f searches earlier)
    (candidate : Candidate abstract (fun v => condition v ∧ f.eval v = true) depth feedback search) :
    ∀ e ∈ earlier ++ [feedback], e.step ≤ feedback.step ∧ ∃ u, abstract.IsWitnessed e u := by
  refine List.forall_mem_append.mpr ⟨fun e member => ?_, List.forall_mem_singleton.mpr ?_⟩
  · exact ⟨Nat.le_trans (underway.notAfter e member) candidate.after, underway.witnessed e member⟩
  · exact ⟨Nat.le_refl _, candidate.witnessed.imp fun _ => And.left⟩

/-- Behind a round that refutes a candidate the refinement is on its way at its depth. -/
theorem Underway.next (builtAbstract : abstract.WellBuilt) (builtConcrete : concrete.WellBuilt)
    (sound : solver.Sound)
    (underway : Underway abstract concrete condition depth f searches earlier)
    (candidate : Candidate abstract (fun v => condition v ∧ f.eval v = true) depth feedback search)
    {answer : Feedback} {after : Refinement σ}
    (replayed : Runs (replay solver concrete feedback depth) ⟨search, searches.concrete⟩ answer
      after)
    {exclusion : Formula}
    (isExclusion : Witness.formula abstract.system feedback.witness = .ok exclusion) :
    Underway abstract concrete (fun v => condition v ∧ f.eval v = true) feedback.step exclusion.neg
      after (earlier ++ [feedback]) := by
  obtain ⟨u, witnessed, _⟩ := candidate.witnessed
  obtain ⟨_, rfl, knowsToo, hereToo⟩ := answersAt_of_replay builtAbstract.fits builtConcrete sound
    witnessed underway.resumesToo replayed
  have all := underway.witnessed_append candidate
  constructor
  case resumes => exact candidate.knows.resumes
  case resumesToo => exact knowsToo.resumes
  case here => exact candidate.here
  case hereToo => exact hereToo
  case within => exact candidate.inside
  case notAfter => exact fun e member => (all e member).1
  case witnessed => exact fun e member => (all e member).2
  case excluded =>
    intro e member v holds off
    rcases List.mem_append.mp member with old | new
    · exact underway.excluded e old v holds.1 holds.2
    · obtain rfl := List.mem_singleton.mp new
      rw [isExclusion, holds_ok]
      simpa using off
  case distinct => exact underway.distinct_append builtAbstract candidate

/-! ## The number of rounds -/

/-- Of violations none of which repeats an earlier one there are at a depth no more than paths. -/
theorem countP_le_states (built : abstract.WellBuilt)
    (witnessed : ∀ e ∈ earlier, ∃ u, abstract.IsWitnessed e u)
    (distinct : earlier.Pairwise fun e later => ¬e.Repeats later) (n : Nat) :
    earlier.countP (fun e => e.step = n) ≤ Nat.pow abstract.system.states (n + 1) := by
  have : Nonempty Valuation := ⟨fun _ => false⟩
  choose! u isWitnessed using witnessed
  let here := earlier.filter fun e => e.step = n
  have isHere : ∀ e ∈ here, e ∈ earlier ∧ e.step = n := by
    intro e member
    simpa [here] using member
  have runs : ∀ s ∈ here.map fun e => (u e).stateAt abstract.system,
      ∃ wildcard, abstract.system.IsRun wildcard n s := by
    rw [List.forall_mem_map]
    intro e member
    obtain ⟨listed, rfl⟩ := isHere e member
    have shown := isWitnessed e listed
    exact ⟨_, shown.unrolls.isRun built shown.room⟩
  have apart : (here.map fun e => (u e).stateAt abstract.system).Pairwise fun s s' =>
      ¬∀ t ≤ n, System.Covers abstract.system abstract.system (s t) (s' t) := by
    rw [List.pairwise_map]
    refine (distinct.filter _).imp_of_mem fun {e later} member memberToo new => ?_
    obtain ⟨listed, isStep⟩ := isHere e member
    obtain ⟨listedToo, isStepToo⟩ := isHere later memberToo
    rwa [Feedback.repeats_iff built.fits (isWitnessed e listed).decoded
      (isWitnessed later listedToo).decoded (isStep.trans isStepToo.symm).le, isStep] at new
  have counted := System.length_le_of_not_covers runs apart
  rwa [List.length_map, ← List.countP_eq_length_filter] at counted

end Refinement

end Trivalent
