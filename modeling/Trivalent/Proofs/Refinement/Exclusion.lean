import Trivalent.Proofs.Refinement.Candidate

/-!
# Excluded paths were refuted

A refinement excludes the path of an abstract violation when the concrete system has no violation of
the same length on it.  So whatever a search of the abstract system no longer finds begins with the
path of a violation that was refuted at its own depth.  When nothing is found up to the bound, this
holds of every violation of the abstract system.
-/

namespace Trivalent

namespace System

variable {abstract concrete : System}

theorem Covers.congr {a a' c c' : State} (covers : Covers abstract concrete a c)
    (agree : a.Agrees abstract.processes.length a')
    (agreeToo : c.Agrees concrete.processes.length c') : Covers abstract concrete a' c' := by
  constructor
  · intro p insideFirst insideSecond
    rw [← agree.location p insideFirst, ← agreeToo.location p insideSecond]
    exact covers.location p insideFirst insideSecond
  · intro name i j isFirst isSecond
    rw [← agree.status, ← agreeToo.status]
    exact covers.status name i j isFirst isSecond

/-- A violation of the abstract system that no violation of the concrete system of the same length
follows. -/
structure IsSpurious (abstract concrete : System) (configuration : Configuration) (n : Nat)
    (a : Nat → State) : Prop where
  violates : abstract.Violates configuration true n a
  refuted : ∀ c, concrete.Violates configuration true n c →
    ¬∀ t ≤ n, Covers abstract concrete (a t) (c t)

/-- A sequence of states begins with the path of a violation that was refuted in a round, at a depth
up to `last`. -/
def Excluded (abstract concrete : System) (configuration : Configuration) (rounds : List Round)
    (last : Nat) (s : Nat → State) : Prop :=
  ∃ j ≤ last, ⟨j, .noneFound⟩ ∈ rounds ∧
    ∃ a, abstract.IsSpurious concrete configuration j a ∧
      ∀ t ≤ j, Covers abstract abstract (a t) (s t)

variable {configuration : Configuration} {rounds rounds' : List Round} {last last' : Nat}
  {s s' : Nat → State}

theorem Excluded.mono (excluded : Excluded abstract concrete configuration rounds last s)
    (later : last ≤ last') (more : ∀ round ∈ rounds, round ∈ rounds') :
    Excluded abstract concrete configuration rounds' last' s := by
  rcases excluded with ⟨j, within, isRound, path⟩
  exact ⟨j, Nat.le_trans within later, more _ isRound, path⟩

theorem Excluded.congr (excluded : Excluded abstract concrete configuration rounds last s)
    (agree : ∀ t ≤ last, (s t).Agrees abstract.processes.length (s' t)) :
    Excluded abstract concrete configuration rounds last s' := by
  rcases excluded with ⟨j, within, isRound, a, spurious, covers⟩
  have coversToo : ∀ t ≤ j, Covers abstract abstract (a t) (s' t) := by
    intro t before
    exact (covers t before).congr ⟨fun _ _ => rfl, rfl⟩ (agree t (Nat.le_trans before within))
  exact ⟨j, within, isRound, a, spurious, coversToo⟩

end System

namespace Refinement

open Trivalent.Action

variable {σ : Type} {solver : Sat.Solver σ} {abstract concrete : Task}

/-- What a refinement has established when it comes to a depth: whatever its conditions rule out is
excluded, and so are all violations of fewer steps. -/
structure Establishes (abstract concrete : Task) (condition : Valuation → Prop) (depth : Nat)
    (rounds : List Round) : Prop where
  excluded : ∀ v, ¬condition v → System.Excluded abstract.system concrete.system
    abstract.configuration rounds depth (v.stateAt abstract.system)
  earlier : ∀ n < depth, ∀ v, abstract.Unrolls n v → abstract.Reaches n v → v .wildcard = true →
    System.Excluded abstract.system concrete.system abstract.configuration rounds n
      (v.stateAt abstract.system)

variable {condition : Valuation → Prop} {depth : Nat} {rounds : List Round}

/-- Without conditions nothing is ruled out. -/
theorem establishes_initial : Establishes abstract concrete (fun _ => True ∧ True) 0 rounds where
  excluded _ ruledOut := absurd ⟨trivial, trivial⟩ ruledOut
  earlier _ before := absurd before (Nat.not_lt_zero _)

/-- A depth at which nothing is found has only excluded violations. -/
theorem Establishes.of_impossible (established : Establishes abstract concrete condition depth rounds)
    {n : Nat} (never : depth ≤ n → ¬abstract.Possible condition (abstract.Reaches n) n true) :
    ∀ v, abstract.Unrolls n v → abstract.Reaches n v → v .wildcard = true →
      System.Excluded abstract.system concrete.system abstract.configuration rounds n
        (v.stateAt abstract.system) := by
  intro v unrolls reaches reads
  rcases Nat.lt_or_ge n depth with before | after
  · exact established.earlier n before v unrolls reaches reads
  · have ruledOut : ¬condition v := by
      intro holds
      exact never after ⟨v, unrolls, holds, reaches, reads⟩
    exact (established.excluded v ruledOut).mono after fun _ member => member

/-- A path that is refuted belongs to a spurious violation. -/
theorem isSpurious_of_refuted (builtAbstract : abstract.WellBuilt)
    (builtConcrete : concrete.WellBuilt)
    (same : concrete.configuration = abstract.configuration) {n : Nat} (room : n < Word.limit)
    {u : Valuation} (unrolls : abstract.Unrolls n u) (reaches : abstract.Reaches n u)
    (reads : u .wildcard = true)
    (refuted : ¬concrete.Possible (fun _ => True) (fun v => (∀ t ≤ n,
      System.Covers abstract.system concrete.system (u.stateAt abstract.system t)
        (v.stateAt concrete.system t)) ∧ concrete.Reaches n v) n true) :
    abstract.system.IsSpurious concrete.system abstract.configuration n
      (u.stateAt abstract.system) := by
  constructor
  · rw [← reads]
    exact Task.violates_of_unrolls builtAbstract room unrolls reaches
  · intro c violates covers
    rw [← same] at violates
    obtain ⟨v, unrollsToo, reachesToo, readsToo, agree⟩ :=
      Task.exists_unrolls_of_violates builtConcrete room violates
    refine refuted ⟨v, unrollsToo, trivial, ⟨fun t within => ?_, reachesToo⟩, readsToo⟩
    exact (covers t within).congr ⟨fun _ _ => rfl, rfl⟩ (agree t within).symm

/-- A round that refutes a path excludes it. -/
theorem Establishes.of_refuted (established : Establishes abstract concrete condition depth rounds)
    {n : Nat} (after : depth ≤ n)
    (least : ∀ m, depth ≤ m → m < n → ¬abstract.Possible condition (abstract.Reaches m) m true)
    {u : Valuation}
    (spurious : abstract.system.IsSpurious concrete.system abstract.configuration n
      (u.stateAt abstract.system)) :
    Establishes abstract concrete (fun v => condition v ∧ ¬∀ t ≤ n,
      System.Covers abstract.system abstract.system (u.stateAt abstract.system t)
        (v.stateAt abstract.system t)) n (rounds ++ [⟨n, .noneFound⟩]) := by
  have more : ∀ round ∈ rounds, round ∈ rounds ++ [⟨n, .noneFound⟩] :=
    fun round member => List.mem_append_left _ member
  constructor
  · intro v ruledOut
    by_cases holds : condition v
    · have follows := not_not.mp fun notFollows => ruledOut ⟨holds, notFollows⟩
      exact ⟨n, Nat.le_refl n, by simp, _, spurious, follows⟩
    · exact (established.excluded v holds).mono after more
  · intro m before v unrolls reaches reads
    exact (established.of_impossible (fun behind => least m behind before) v unrolls reaches
      reads).mono (Nat.le_refl m) more

/-- So a round that refutes a candidate leaves its exclusion, and nothing else, to go on with. -/
theorem Establishes.next (builtAbstract : abstract.WellBuilt) (builtConcrete : concrete.WellBuilt)
    (same : concrete.configuration = abstract.configuration) (sound : solver.Sound)
    (established : Establishes abstract concrete condition depth rounds) {feedback : Feedback}
    {search searchToo : Search σ}
    (candidate : Candidate abstract condition depth feedback search)
    (resumesToo : searchToo.Resumes concrete fun _ => True) {answer : Feedback}
    {searches : Refinement σ}
    (replayed : Runs (replay solver concrete feedback depth) ⟨search, searchToo⟩ answer searches)
    (indefinite : answer.verdict ≠ .definite) {exclusion : Formula}
    (isExclusion : Witness.formula abstract.system feedback.witness = .ok exclusion) :
    searches.abstract = search ∧ searches.concrete.Resumes concrete (fun _ => True) ∧
      ∃ off, exclusion.neg.Expresses off ∧
        Establishes abstract concrete (fun v => condition v ∧ off v) feedback.step
          (rounds ++ [⟨feedback.step, answer.verdict⟩]) := by
  obtain ⟨u, witnessed, _⟩ := candidate.witnessed
  obtain ⟨answers, isAbstract, knowsToo, _⟩ := answersAt_of_replay builtAbstract.fits builtConcrete
    sound witnessed resumesToo replayed
  refine ⟨isAbstract, knowsToo.resumes, _,
    expresses_exclusion builtAbstract.fits witnessed isExclusion, ?_⟩
  cases answers with
  | confirmed definite _ => exact absurd definite indefinite
  | refuted none never =>
      obtain rfl := none
      exact established.of_refuted candidate.after candidate.least
        (isSpurious_of_refuted builtAbstract builtConcrete same witnessed.room witnessed.unrolls
          witnessed.reaches witnessed.reads never)

/-- When a refinement finds nothing, every violation of the abstract system is excluded. -/
theorem excluded_of_noneFound (builtAbstract : abstract.WellBuilt)
    (builtConcrete : concrete.WellBuilt)
    (same : concrete.configuration = abstract.configuration) (sound : solver.Sound)
    {stage : Stage} {further : Valuation → Prop} {searches searches' : Refinement σ}
    {report : Report}
    (refines : Refines solver abstract concrete stage searches (.ok report) searches')
    (noneFound : report.feedback.verdict = .noneFound)
    (resumes : searches.abstract.Resumes abstract condition)
    (resumesToo : searches.concrete.Resumes concrete fun _ => True)
    (meaning : stage.condition.Expresses further)
    (within : stage.depth ≤ abstract.configuration.bound + 1)
    (established : Establishes abstract concrete (fun v => condition v ∧ further v) stage.depth
      stage.rounds) :
    abstract.configuration.bound + 1 < Word.limit ∧
      ∀ n ≤ abstract.configuration.bound, ∀ v, abstract.Unrolls n v → abstract.Reaches n v →
        v .wildcard = true →
          System.Excluded abstract.system concrete.system abstract.configuration report.rounds n
            (v.stateAt abstract.system) := by
  generalize isReport : Except.ok report = result at refines
  induction refines generalizing condition further with
  | settled searched _ =>
      obtain rfl := Except.ok.inj isReport
      obtain ⟨answers, knows, reached⟩ :=
        Search.runs_evaluate builtAbstract sound resumes meaning within searched
      cases answers with
      | exhausted none never =>
          obtain rfl := none
          constructor
          · rw [← Feedback.depth_noneUpTo, ← reached]
            exact knows.room
          · intro n inside
            exact established.of_impossible fun after => never n after inside
      | found n _ _ _ finds => exact absurd noneFound finds.found
  | confirmed _ _ _ definite =>
      obtain rfl := Except.ok.inj isReport
      exact absurd (definite.symm.trans noneFound) nofun
  | refuted searched possible replayed indefinite isExclusion _ ih =>
      have candidate :=
        candidate_of_runs builtAbstract sound resumes meaning within searched possible
      obtain ⟨rfl, resumesToo', off, excludes, establishedToo⟩ := established.next builtAbstract
        builtConcrete same sound candidate resumesToo replayed indefinite isExclusion
      exact ih candidate.knows.resumes resumesToo' excludes (Nat.le_succ_of_le candidate.inside)
        establishedToo isReport
  | failed _ | stopped _ _ _ | unstated _ _ _ _ _ => contradiction

end Refinement

end Trivalent
