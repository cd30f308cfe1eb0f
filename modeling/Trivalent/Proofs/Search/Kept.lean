import Trivalent.Proofs.Sat.Answering
import Trivalent.Proofs.Search.Action
import Trivalent.Proofs.Task.Range
import Trivalent.Search.Basic

/-!
# What searches keep

A search changes in three ways: its solver is asked, its run takes up a formula, and its steps are
counted.  It ends with an error if the solver does not answer, if a number leaves its range, or if it
is asked for what it cannot do.  So what survives each of these survives every call of a search.
-/

namespace Trivalent.Search

open Trivalent.Action

variable {σ : Type} {solver : Sat.Solver σ} {task : Task} {P : Search σ → Prop}
  {E : CheckError → Prop}

/-- What queries keep: it stays when the solver is asked.  Errors are of a kind that has those of
unanswered queries and those of numbers that leave their range. -/
structure KeptByQueries (solver : Sat.Solver σ) (P : Search σ → Prop) (E : CheckError → Prop) :
    Prop where
  asked : ∀ search formulas, P search →
    P { search with solver := solver.asked search.solver formulas }
  unanswered : ∀ search formulas, P search →
    (solver.solve (solver.load search.solver formulas)).1 = .failed → E .solverFailed
  range : ∀ fault : Fault, fault.IsRange → E (.fault fault)

/-- What steps keep as well: it stays when the run takes up a formula and when a step is counted. -/
structure KeptBySteps (solver : Sat.Solver σ) (P : Search σ → Prop) (E : CheckError → Prop) : Prop
    extends KeptByQueries solver P E where
  taken : ∀ search f, P search → P { search with run := search.run ++ [f] }
  counted : ∀ search, P search → P { search with step := search.step + 1 }

namespace KeptByQueries

variable (kept : KeptByQueries solver P E)

include kept

theorem keeps_ofFault {α : Type} {value : Except Fault α} (faults : RangeFaults value) :
    Keeps P E (ofFault value) :=
  Action.keeps_ofFault fun fault isFault => kept.range fault (faults fault isFault)

theorem keeps_query (f : Formula) (depth : Nat) (phase : Phase) :
    Keeps P E (query solver f depth phase) := by
  intro search holds
  have asked := kept.asked search (search.run ++ [f, reading phase]) holds
  have unanswered := kept.unanswered search (search.run ++ [f, reading phase]) holds
  rw [Sat.Solver.asked] at asked
  rw [KeepsAt, query_eq]
  split
  · rename_i solved
    rw [solved] at asked
    refine ⟨asked, ?_⟩
    rintro _ ⟨⟩
  · rename_i solved
    rw [solved] at asked
    refine ⟨asked, ?_⟩
    rintro _ ⟨⟩
  · rename_i solved
    rw [solved] at asked unanswered
    refine ⟨asked, ?_⟩
    rintro _ ⟨⟩
    exact unanswered rfl

theorem keeps_classify (f : Formula) (depth : Nat) :
    Keeps P E (classify solver task f depth) := by
  refine (kept.keeps_query f depth .optimistic).bind fun optimistic => ?_
  cases optimistic with
  | none => exact keeps_pure
  | some v =>
      refine (kept.keeps_ofFault (Witness.rangeFaults_decode _ _ v depth)).bind fun witness => ?_
      refine (kept.keeps_query f depth .definite).bind fun definite => ?_
      exact keeps_log.bind fun _ => keeps_pure

end KeptByQueries

theorem keeps_reached : Keeps P E (reached : Action Id (Search σ) Nat) :=
  keeps_state.bind fun _ => keeps_pure

theorem keepsAt_checkStart {search : Search σ} {start : Nat} (holds : P search)
    (elsewhere : start ≠ search.step → E (.fault (.startMismatch start search.step))) :
    KeepsAt P E (checkStart start) search := by
  refine (keeps_reached search holds).bind fun step third isKept isReached => ?_
  obtain ⟨_, _, isState, runs⟩ := runs_bind_iff.mp isReached
  obtain ⟨rfl, rfl⟩ := runs_state_iff.mp isState
  obtain ⟨rfl, rfl⟩ := runs_pure_iff.mp runs
  exact keeps_ite (fun other => keeps_fail (elsewhere other)) (fun _ => keeps_pure) _ isKept

namespace KeptBySteps

variable (kept : KeptBySteps solver P E)

include kept

theorem keeps_push (f : Formula) : Keeps P E (push f) :=
  keeps_modify fun search => kept.taken search f

theorem keeps_begin (start : Nat) : Keeps P E (begin task start) :=
  keeps_ite
    (fun _ => (kept.keeps_ofFault task.rangeFaults_initial).bind fun f => kept.keeps_push f)
    fun _ => keeps_pure

theorem keeps_extend (steps : Nat) : Keeps P E (extend task steps) := by
  induction steps with
  | zero => exact keeps_pure
  | succ steps ih =>
      refine keeps_reached.bind fun step => ?_
      refine (kept.keeps_ofFault (task.rangeFaults_step step)).bind fun f => ?_
      refine (kept.keeps_push f).bind fun _ => Keeps.bind ?_ fun _ => ih
      exact keeps_modify kept.counted

theorem keeps_extendTo (depth : Nat) : Keeps P E (extendTo task depth) :=
  keeps_reached.bind fun _ => kept.keeps_extend _

theorem keeps_sweep (count depth : Nat) : Keeps P E (sweep solver task count depth) := by
  induction count generalizing depth with
  | zero => exact keeps_log.bind fun _ => keeps_pure
  | succ count ih =>
      refine (kept.keeps_ofFault (task.rangeFaults_property depth)).bind fun f => ?_
      refine (kept.keeps_classify f depth).bind fun answer => ?_
      cases answer with
      | some feedback => exact keeps_pure
      | none =>
          refine (kept.keeps_ofFault (rangeFaults_add depth 1)).bind fun later => ?_
          exact (kept.keeps_extendTo later).bind fun _ => ih (depth + 1)

/-- A search of all depths keeps this, if a start where it has not come to is an error of the
kind. -/
theorem keepsAt_evaluate {search : Search σ} {start : Nat} (holds : P search) (condition : Formula)
    (elsewhere : start ≠ search.step → E (.fault (.startMismatch start search.step))) :
    KeepsAt P E (evaluate solver task start condition) search := by
  refine (keepsAt_checkStart holds elsewhere).bind fun _ second isKept _ => ?_
  refine Keeps.bind (kept.keeps_push condition) (fun _ => ?_) second isKept
  exact (kept.keeps_begin start).bind fun _ => kept.keeps_sweep _ start

/-- A search of one depth keeps it, if a depth before the start and uncertainty are errors of the
kind as well. -/
theorem keepsAt_evaluateAt {search : Search σ} {depth start : Nat} (holds : P search)
    (constraints : List Formula)
    (elsewhere : start ≠ search.step → E (.fault (.startMismatch start search.step)))
    (behind : depth < start → E (.fault .cannotShrink)) (uncertain : E (.uncertain depth)) :
    KeepsAt P E (evaluateAt solver task constraints depth start) search := by
  refine (keepsAt_checkStart holds elsewhere).bind fun _ second isKept _ => ?_
  refine keeps_ite (fun isBehind => (keeps_fail (behind isBehind)).bind fun _ => ?_) (fun _ => ?_)
    second isKept
  all_goals
    refine (kept.keeps_begin start).bind fun _ => (kept.keeps_extendTo depth).bind fun _ => ?_
    refine (kept.keeps_ofFault (task.rangeFaults_property depth)).bind fun f => ?_
    refine (kept.keeps_classify _ depth).bind fun answer => ?_
    cases answer with
    | none => exact keeps_pure
    | some feedback => exact keeps_ite (fun _ => keeps_fail uncertain) fun _ => keeps_pure

end KeptBySteps

/-- A search whose solver answers goes on having one, and no query of it is left unanswered. -/
theorem keptBySteps_answersFrom :
    KeptBySteps solver (fun search => solver.AnswersFrom search.solver) (· ≠ .solverFailed) where
  asked _ formulas answersFrom := answersFrom.asked formulas
  unanswered _ formulas answersFrom failed := absurd failed (answersFrom.answers formulas)
  range _ _ := nofun
  taken _ _ answersFrom := answersFrom
  counted _ answersFrom := answersFrom

end Trivalent.Search
