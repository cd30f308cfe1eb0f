import Trivalent.Proofs.Search.Resumed
import Trivalent.Proofs.Semantics.Known

/-!
# Searches that are never uncertain

Every predicate of a system without choices is known in all unrollings, which therefore stay
unrollings when unknown predicates are read the other way.  So whatever its calls were, as long as
they do not mention the wildcard, a search finds definite violations only.
-/

namespace Trivalent

namespace Formula

/-- The value of a formula does not depend on how unknown predicates are read. -/
def IgnoresReading (f : Formula) : Prop :=
  ∀ (v : Valuation) (wildcard : Bool), f.eval (v.fix .wildcard wildcard) = f.eval v

/-- A formula that does not mention the wildcard does not depend on it. -/
theorem ignoresReading_of_not_mem {f : Formula} (unmentioned : .wildcard ∉ f.occurrences) :
    f.IgnoresReading := by
  intro v wildcard
  refine eval_congr f fun a occurs => if_neg ?_
  rintro rfl
  exact unmentioned occurs

end Formula

namespace Task

variable {task : Task} {conditions : List Formula} {n : Nat} {wildcard : Bool}

section Choiceless

variable (built : task.WellBuilt) (declared : task.system.Declared)
  (choiceless : task.system.Choiceless) (room : n < Word.limit)

include built declared choiceless room

/-- Every predicate is known at all steps of an unrolling. -/
theorem Unrolls.isKnown {v : Valuation} (unrolls : task.Unrolls n v) :
    ∀ t ≤ n, task.system.IsKnown (v.stateAt task.system t) :=
  (unrolls.isRun built room).isKnown declared choiceless

/-- What can be satisfied under one reading of unknown predicates can be under the other one. -/
theorem Satisfiable.reading (ignored : ∀ f ∈ conditions, f.IgnoresReading)
    (satisfiable : task.Satisfiable conditions n wildcard) (wildcard' : Bool) :
    task.Satisfiable conditions n wildcard' := by
  obtain ⟨v, ⟨unrolls, property, holds⟩, _⟩ := satisfiable
  have known := unrolls.isKnown built declared choiceless room
  refine ⟨v.fix .wildcard wildcard', ⟨?_, holds_property_fix built property, ?_⟩, rfl⟩
  · refine unrolls.fix built room fun t before p moves => ?_
    exact (moves.of_isKnown declared choiceless (known t (Nat.le_of_lt before))).1
  · intro f member
    rw [ignored f member v wildcard']
    exact holds f member

end Choiceless

end Task

namespace Search

open Trivalent.Action

variable {σ : Type} {solver : Sat.Solver σ} {task : Task} {conditions constraints : List Formula}
  {search search' : Search σ} {condition : Formula} {feedback : Feedback} {first depth k : Nat}

/-! ## Where uncertainty is reported -/

/-- No part of a search but the last one reports that a system is uncertain. -/
theorem keptBySteps_uncertain (k : Nat) :
    KeptBySteps solver (fun _ => True) (· ≠ .uncertain k) where
  asked _ _ _ := trivial
  unanswered _ _ _ _ := nofun
  range _ _ := nofun
  taken _ _ _ := trivial
  counted _ _ := trivial

/-- A search of all depths never reports that the system is uncertain. -/
theorem not_uncertain_evaluate :
    ¬Fails (evaluate solver task first condition) search (.uncertain k) search' := by
  intro fails
  have certain := ((keptBySteps_uncertain k).keepsAt_evaluate trivial condition fun _ => nofun).of_fails
    fails
  exact certain.2 rfl

/-- A search of one depth reports it where a violation is possible and not definite. -/
theorem classified_of_fails_evaluateAt (built : task.WellBuilt)
    (resumes : search.Resumes task fun v => ∀ f ∈ conditions, f.eval v = true)
    (sound : solver.Sound) (room : depth < Word.limit)
    (fails : Fails (evaluateAt solver task constraints depth first) search (.uncertain k) search') :
    task.Satisfiable (conditions ++ constraints) depth true ∧
      ¬task.Satisfiable (conditions ++ constraints) depth false := by
  by_cases goesOn : first = search.step ∧ first ≤ depth
  · obtain ⟨rfl, ahead⟩ := goesOn
    obtain ⟨_, _, isFailed | ⟨answer, classifies, result⟩⟩ :=
      outcome_evaluateAt built sound resumes (fun _ => Iff.rfl) room ahead
    · cases fails.1.symm.trans isFailed
    · rw [fails.1] at result
      rw [← Task.possibleAt_iff_satisfiable built, ← Task.possibleAt_iff_satisfiable built]
      cases answer with
      | none => cases result
      | some feedback =>
          rw [resultAt] at result
          split at result
          · rename_i possible
            rw [← classifies.definite_iff, possible]
            exact ⟨Task.Finds.possible classifies, by decide⟩
          · cases result
  · obtain ⟨_, failsToo⟩ := exists_fault_evaluateAt solver task constraints goesOn
    cases fails.1.symm.trans failsToo.1

/-! ## Systems without choices -/

section Choiceless

variable (built : task.WellBuilt) (declared : task.system.Declared)
  (choiceless : task.system.Choiceless) (sound : solver.Sound)
  (resumes : search.Resumes task fun v => ∀ f ∈ conditions, f.eval v = true)

include built declared choiceless sound resumes

/-- A search of all depths finds no violation that is only possible. -/
theorem Resumes.not_possible (ignored : ∀ f ∈ conditions ++ [condition], f.IgnoresReading)
    (runs : Runs (evaluate solver task first condition) search feedback search') :
    feedback.verdict ≠ .possible := by
  obtain rfl := first_eq_of_runs runs
  rcases Nat.le_total (task.configuration.bound + 1) search.step with behind | within
  · obtain ⟨rfl, _⟩ := runs_evaluate_behind resumes behind runs
    exact nofun
  · intro possible
    obtain ⟨answers, knows, reached⟩ :=
      runs_evaluate built sound resumes (fun _ => Iff.rfl) within runs
    have finds := answers.findsLeast built
    have found : feedback.verdict ≠ .noneFound := by
      rw [possible]
      exact nofun
    have room := knows.room
    rw [reached, Feedback.depth_of_found found] at room
    have definite := (finds.possible found).reading built declared choiceless room ignored false
    rw [(finds.definite_iff found).mpr definite] at possible
    contradiction

/-- A search of one depth does not report that the system is uncertain. -/
theorem Resumes.not_uncertain (room : depth < Word.limit)
    (ignored : ∀ f ∈ conditions ++ constraints, f.IgnoresReading) :
    ¬Fails (evaluateAt solver task constraints depth first) search (.uncertain k) search' := by
  intro fails
  obtain ⟨possible, indefinite⟩ := classified_of_fails_evaluateAt built resumes sound room fails
  exact indefinite (possible.reading built declared choiceless room ignored false)

/-- So no call is uncertain if its formulas and the conditions do not depend on the reading. -/
theorem Resumes.certain {call : Call} (inRange : call.InRange)
    (ignored : ∀ f ∈ conditions ++ call.formulas, f.IgnoresReading) :
    (∀ feedback, (call.action solver task search).result = .ok feedback →
      feedback.verdict ≠ .possible) ∧
      ∀ k, (call.action solver task search).result ≠ .error (.uncertain k) := by
  cases call with
  | evaluate first condition =>
      constructor
      · exact fun feedback result =>
          resumes.not_possible built declared choiceless sound ignored ⟨result, rfl⟩
      · exact fun k result => not_uncertain_evaluate ⟨result, rfl⟩
  | evaluateAt constraints depth first =>
      constructor
      · intro feedback result possible
        obtain ⟨answers, _⟩ :=
          runs_evaluateAt built sound resumes (fun _ => Iff.rfl) inRange ⟨result, rfl⟩
        cases answers with
        | refuted none _ => exact absurd (none ▸ possible) nofun
        | confirmed definite _ => exact absurd (definite.symm.trans possible) nofun
      · exact fun k result =>
          resumes.not_uncertain built declared choiceless sound inRange ignored ⟨result, rfl⟩

end Choiceless

end Search

end Trivalent
