import Trivalent.Proofs.Search.Query

/-!
# Searches are exact

A search that goes through the depths in turn knows the run up to where it has come.  It ends at the
first depth with a violation among the runs that satisfy its conditions, or there is none up to the
bound.  It ends with an error only where a query is not answered, and then it has come past no
violation.
-/

namespace Trivalent

namespace Task

variable {task : Task}

theorem unrolls_succ_iff {n : Nat} {v : Valuation} :
    task.Unrolls (n + 1) v ↔ task.Unrolls n v ∧ Holds v (task.step n) := by
  constructor
  · intro unrolls
    exact ⟨unrolls.mono (Nat.le_succ n), unrolls.steps n (Nat.lt_succ_self n)⟩
  · rintro ⟨unrolls, last⟩
    constructor
    · exact unrolls.initial
    · intro t before
      rcases Nat.lt_succ_iff_lt_or_eq.mp before with earlier | rfl
      · exact unrolls.steps t earlier
      · exact last

theorem unrolls_zero_iff {v : Valuation} : task.Unrolls 0 v ↔ Holds v task.initial := by
  constructor
  · intro unrolls
    exact unrolls.initial
  · intro initial
    exact ⟨initial, fun t before => absurd before (Nat.not_lt_zero t)⟩

/-- Feedback on a search of the depths from `first` up to the bound: there is no violation at any
of them, or the first one is shown. -/
inductive Answers (task : Task) (condition : Valuation → Prop) (first : Nat)
    (feedback : Feedback) : Prop where
  | exhausted (none : feedback = .noneUpTo task.configuration.bound)
      (never : ∀ n, first ≤ n → n ≤ task.configuration.bound →
        ¬task.Possible condition (task.Reaches n) n true)
  | found (n : Nat) (after : first ≤ n) (within : n ≤ task.configuration.bound)
      (least : ∀ m, first ≤ m → m < n → ¬task.Possible condition (task.Reaches m) m true)
      (finds : task.Finds condition (task.Reaches n) n feedback)

/-- What holds at a depth and at all later ones holds from the depth on. -/
theorem forall_from {P : Nat → Prop} {first : Nat} (here : P first)
    (later : ∀ n, first + 1 ≤ n → P n) : ∀ n, first ≤ n → P n := by
  intro n after
  rcases Nat.lt_or_eq_of_le after with isLater | rfl
  · exact later n isLater
  · exact here

/-- A search from the next depth on answers for a depth at which there is no violation. -/
theorem Answers.of_succ {condition : Valuation → Prop} {first : Nat} {feedback : Feedback}
    (answers : task.Answers condition (first + 1) feedback)
    (notFirst : ¬task.Possible condition (task.Reaches first) first true) :
    task.Answers condition first feedback := by
  cases answers with
  | exhausted none never => exact .exhausted none (forall_from (fun _ => notFirst) never)
  | found n after within least finds =>
      exact .found n (Nat.le_of_succ_le after) within (forall_from (fun _ => notFirst) least) finds

end Task

/-- The depth at which a search up to a bound ends with some feedback: that of the violation, or the
one behind the bound. -/
def Feedback.depth (feedback : Feedback) (bound : Nat) : Nat :=
  if feedback.verdict = .noneFound then bound + 1 else feedback.step

theorem Feedback.depth_of_found {feedback : Feedback} (found : feedback.verdict ≠ .noneFound)
    (bound : Nat) : feedback.depth bound = feedback.step :=
  if_neg found

theorem Feedback.depth_noneUpTo (bound : Nat) : (Feedback.noneUpTo bound).depth bound = bound + 1 :=
  if_pos rfl

namespace Search

open Trivalent.Action

variable {σ : Type} {solver : Sat.Solver σ} {task : Task} {search search' : Search σ}
  {condition : Valuation → Prop}

/-! ## The run -/

/-- A search may be continued: its formulas say what its run and its conditions do, up to the
initial state as long as there are no steps. -/
structure Resumes (task : Task) (condition : Valuation → Prop) (search : Search σ) : Prop where
  room : search.step < Word.limit
  run_iff : ∀ v, (search.step = 0 → Holds v task.initial) →
    ((∀ f ∈ search.run, f.eval v = true) ↔ task.Unrolls search.step v ∧ condition v)

theorem Knows.resumes (knows : search.Knows task condition) : search.Resumes task condition :=
  ⟨knows.room, fun v _ => knows.run_iff v⟩

theorem resumes_initial (solver : σ) : (initial solver).Resumes task fun _ => True := by
  constructor
  · show 0 < Word.limit
    decide
  · intro v starts
    simp only [initial, List.not_mem_nil, false_imp_iff, implies_true, and_true, true_iff,
      Task.unrolls_zero_iff]
    exact starts rfl

theorem runs_reached_iff {step : Nat} : Runs reached search step search' ↔
    search.step = step ∧ search = search' := by
  unfold reached
  rw [runs_bind_iff]
  constructor
  · rintro ⟨state, between, isState, runs⟩
    rcases runs_state_iff.mp isState with ⟨rfl, rfl⟩
    exact runs_pure_iff.mp runs
  · rintro ⟨rfl, rfl⟩
    exact ⟨search, search, runs_state_iff.mpr ⟨rfl, rfl⟩, runs_pure_iff.mpr ⟨rfl, rfl⟩⟩

theorem runs_push_iff {f : Formula} {result : Unit} : Runs (push f) search result search' ↔
    { search with run := search.run ++ [f] } = search' :=
  runs_modify_iff

/-- A condition may be put on a search. -/
theorem Resumes.push {f : Formula} {further : Valuation → Prop}
    (resumes : search.Resumes task condition) (meaning : f.Expresses further) :
    Resumes task (fun v => condition v ∧ further v)
      { search with run := search.run ++ [f] } := by
  constructor
  · exact resumes.room
  · intro v starts
    show (∀ g ∈ search.run ++ [f], g.eval v = true) ↔ _
    rw [List.forall_mem_append, List.forall_mem_singleton, resumes.run_iff v starts, meaning v,
      and_assoc]

/-- A search that is begun knows its run. -/
theorem runs_begin (resumes : search.Resumes task condition)
    {result : Unit} (runs : Runs (begin task search.step) search result search') :
    search'.Knows task condition ∧ search'.step = search.step := by
  unfold begin at runs
  rw [runs_ite_iff] at runs
  split at runs
  · rename_i start
    rcases runs_bind_iff.mp runs with ⟨f, between, found, runs⟩
    rcases runs_ofFault_iff.mp found with ⟨isInitial, rfl⟩
    obtain rfl := runs_push_iff.mp runs
    have known (v : Valuation) : (∀ g ∈ search.run ++ [f], g.eval v = true) ↔
        task.Unrolls search.step v ∧ condition v := by
      have starts : Holds v task.initial ↔ f.eval v = true := by rw [isInitial, holds_ok]
      rw [List.forall_mem_append, List.forall_mem_singleton]
      constructor
      · rintro ⟨run, initial⟩
        exact (resumes.run_iff v fun _ => starts.mpr initial).mp run
      · intro known
        exact ⟨(resumes.run_iff v fun _ => known.1.initial).mpr known, starts.mp known.1.initial⟩
    exact ⟨⟨resumes.room, known⟩, rfl⟩
  · rename_i started
    rcases runs_pure_iff.mp runs with ⟨_, rfl⟩
    exact ⟨⟨resumes.room, fun v => resumes.run_iff v fun start => absurd start started⟩, rfl⟩

theorem exists_runs_begin (built : task.WellBuilt) (start : Nat) (search : Search σ) :
    ∃ search', Runs (begin task start) search () search' := by
  unfold begin
  by_cases zero : start = 0
  · obtain ⟨f, isInitial, _⟩ := Task.denotes_initial built
    rw [if_pos zero]
    exact ⟨_, runs_bind_iff.mpr
      ⟨f, search, runs_ofFault_iff.mpr ⟨isInitial, rfl⟩, runs_push_iff.mpr rfl⟩⟩
  · rw [if_neg zero]
    exact ⟨search, runs_pure_iff.mpr ⟨rfl, rfl⟩⟩

/-- A search that takes further steps knows them. -/
theorem exists_runs_extend (built : task.WellBuilt) {steps : Nat}
    (knows : search.Knows task condition) (room : search.step + steps < Word.limit) :
    ∃ search', Runs (extend task steps) search () search' ∧
      search'.Knows task condition ∧ search'.step = search.step + steps := by
  induction steps generalizing search with
  | zero => exact ⟨search, runs_pure_iff.mpr ⟨rfl, rfl⟩, knows, rfl⟩
  | succ steps ih =>
      have here : search.step + 1 < Word.limit :=
        Nat.lt_of_le_of_lt (Nat.add_le_add_left (Nat.le_add_left 1 steps) _) room
      obtain ⟨f, isStep, _⟩ := Task.denotes_step built here
      let further : Search σ :=
        { search with run := search.run ++ [f], step := search.step + 1 }
      have knowsFurther : further.Knows task condition := by
        constructor
        · exact here
        · intro v
          show (∀ g ∈ search.run ++ [f], g.eval v = true) ↔ task.Unrolls (search.step + 1) v ∧ _
          rw [List.forall_mem_append, List.forall_mem_singleton, knows.run_iff v,
            Task.unrolls_succ_iff, isStep, holds_ok, and_right_comm]
      obtain ⟨search', runs, knows', step⟩ := ih knowsFurther (by
        show search.step + 1 + steps < Word.limit
        rwa [Nat.add_right_comm, Nat.add_assoc])
      refine ⟨search', ?_, knows', ?_⟩
      · exact runs_bind_iff.mpr ⟨search.step, search, runs_reached_iff.mpr ⟨rfl, rfl⟩,
          runs_bind_iff.mpr ⟨f, search, runs_ofFault_iff.mpr ⟨isStep, rfl⟩,
            runs_bind_iff.mpr ⟨(), _, runs_push_iff.mpr rfl,
              runs_bind_iff.mpr ⟨(), further, runs_modify_iff.mpr rfl, runs⟩⟩⟩⟩
      · rw [step]
        show search.step + 1 + steps = search.step + (steps + 1)
        rw [Nat.add_right_comm, Nat.add_assoc]

/-- A search that goes on to a depth knows the run up to there. -/
theorem exists_runs_extendTo (built : task.WellBuilt) {depth : Nat}
    (knows : search.Knows task condition) (ahead : search.step ≤ depth)
    (room : depth < Word.limit) :
    ∃ search', Runs (extendTo task depth) search () search' ∧
      search'.Knows task condition ∧ search'.step = depth := by
  have total : search.step + (depth - search.step) = depth := Nat.add_sub_cancel' ahead
  have inside : search.step + (depth - search.step) < Word.limit := by rwa [total]
  obtain ⟨search', runs, knows', step⟩ := exists_runs_extend built knows inside
  have goesOn : Runs (extendTo task depth) search () search' :=
    runs_bind_iff.mpr ⟨search.step, search, runs_reached_iff.mpr ⟨rfl, rfl⟩, runs⟩
  exact ⟨search', goesOn, knows', step.trans total⟩

/-! ## Sweeps -/

/-- A sweep ends with the violation that it finds at its first depth, or goes on from the next one. -/
theorem runs_sweep_succ (built : task.WellBuilt) (sound : solver.Sound) {count depth : Nat}
    (knows : search.Knows task condition) (here : search.step = depth) {feedback : Feedback}
    (runs : Runs (sweep solver task (count + 1) depth) search feedback search') :
    ∃ f answer second, f.Expresses (task.Reaches depth) ∧
      Runs (classify solver task f depth) search answer second ∧ search.SameRun second ∧
        task.Classifies condition (task.Reaches depth) depth answer ∧
          match answer with
          | some found => found = feedback ∧ second = search'
          | none => ∃ third, third.Knows task condition ∧ third.step = depth + 1 ∧
              Runs (sweep solver task count (depth + 1)) third feedback search' := by
  rcases runs_bind_iff.mp runs with ⟨f, between, found, runs⟩
  rcases runs_ofFault_iff.mp found with ⟨isProperty, rfl⟩
  obtain ⟨f', isPropertyToo, meaning⟩ := Task.denotes_property built depth
  obtain rfl := Except.ok.inj (isProperty.symm.trans isPropertyToo)
  rcases runs_bind_iff.mp runs with ⟨answer, second, classified, runs⟩
  obtain ⟨same, classifies⟩ := runs_classify sound knows meaning here classified
  refine ⟨f, answer, second, meaning, classified, same, classifies, ?_⟩
  cases answer with
  | some answer => exact runs_pure_iff.mp runs
  | none =>
      rcases runs_bind_iff.mp runs with ⟨later, third, added, runs⟩
      rcases runs_ofFault_iff.mp added with ⟨isLater, rfl⟩
      rcases Word.add_eq_ok_iff.mp isLater with ⟨rfl, room⟩
      rcases runs_bind_iff.mp runs with ⟨_, fourth, extended, runs⟩
      have ahead : second.step ≤ depth + 1 := by
        rw [same.step, here]
        exact Nat.le_succ depth
      obtain ⟨fourth', extendedToo, knows', step⟩ :=
        exists_runs_extendTo built (same.knows knows) ahead room
      obtain rfl := (runs_unique extended extendedToo).2
      exact ⟨fourth, knows', step, runs⟩

/-- A sweep ends at the first depth with a violation, or there is none. -/
theorem runs_sweep (built : task.WellBuilt) (sound : solver.Sound) {count depth : Nat}
    (knows : search.Knows task condition) (here : search.step = depth)
    (left : depth + count = task.configuration.bound + 1) {feedback : Feedback}
    (runs : Runs (sweep solver task count depth) search feedback search') :
    task.Answers condition depth feedback ∧ search'.Knows task condition ∧
      search'.step = feedback.depth task.configuration.bound := by
  induction count generalizing search depth with
  | zero =>
      rcases runs_bind_iff.mp runs with ⟨_, between, logged, runs⟩
      obtain rfl := runs_log_iff.mp logged
      rcases runs_pure_iff.mp runs with ⟨rfl, rfl⟩
      refine ⟨.exhausted rfl fun n after within => ?_, knows, ?_⟩
      · exact absurd (Nat.le_trans after within) (by omega)
      · rw [Feedback.depth_noneUpTo, here, ← left, Nat.add_zero]
  | succ count ih =>
      obtain ⟨f, answer, second, _, _, same, classifies, rest⟩ :=
        runs_sweep_succ built sound knows here runs
      cases answer with
      | some answer =>
          obtain ⟨rfl, rfl⟩ := rest
          refine ⟨.found depth (Nat.le_refl depth) ?_ ?_ classifies, same.knows knows, ?_⟩
          · omega
          · exact fun m after before => absurd after (Nat.not_le_of_lt before)
          · rw [same.step, here, Feedback.depth_of_found classifies.found, classifies.step]
      | none =>
          obtain ⟨third, knows', step, runs⟩ := rest
          obtain ⟨answers, known, reached⟩ := ih knows' step (by omega) runs
          exact ⟨answers.of_succ classifies, known, reached⟩

/-- A sweep ends with an error only where a query is not answered, behind depths at which there is no
violation, or when it has come past all depths that are words. -/
theorem fails_sweep (built : task.WellBuilt) (sound : solver.Sound) {count depth : Nat}
    (knows : search.Knows task condition) (here : search.step = depth)
    (left : depth + count = task.configuration.bound + 1) {error : CheckError}
    (fails : Fails (sweep solver task count depth) search error search') :
    error = .solverFailed ∧ search'.step ≤ task.configuration.bound ∧
        (∀ n, depth ≤ n → n < search'.step → ¬task.Possible condition (task.Reaches n) n true) ∨
      Word.limit ≤ task.configuration.bound + 1 ∧
        ∀ n, depth ≤ n → n < Word.limit → ¬task.Possible condition (task.Reaches n) n true := by
  induction count generalizing search depth with
  | zero =>
      rcases fails_bind_iff.mp fails with failed | ⟨_, between, _, fails⟩
      · exact absurd failed not_fails_log
      · exact absurd fails not_fails_pure
  | succ count ih =>
      obtain ⟨f, isProperty, meaning⟩ := Task.denotes_property built depth
      have found : Runs (.ofFault (task.property depth)) search f search :=
        runs_ofFault_iff.mpr ⟨isProperty, rfl⟩
      rcases fails_bind_iff.mp fails with failed | ⟨f', between, foundToo, fails⟩
      · exact absurd failed found.not_fails
      obtain ⟨rfl, rfl⟩ := runs_unique found foundToo
      rcases fails_bind_iff.mp fails with failed | ⟨answer, second, classified, fails⟩
      · obtain ⟨isFailed, same⟩ := fails_classify built.fits failed
        have step : search'.step = depth := same.step.trans here
        exact .inl ⟨isFailed, by omega, fun n after before => absurd before (by omega)⟩
      obtain ⟨same, classifies⟩ := runs_classify sound knows meaning here classified
      cases answer with
      | some answer => exact absurd fails not_fails_pure
      | none =>
          by_cases inside : depth + 1 < Word.limit
          · have added : Runs (.ofFault (Word.add depth 1)) second (depth + 1) second :=
              runs_ofFault_iff.mpr ⟨Word.add_eq_ok_iff.mpr ⟨rfl, inside⟩, rfl⟩
            rcases fails_bind_iff.mp fails with failed | ⟨later, third, addedToo, fails⟩
            · exact absurd failed added.not_fails
            obtain ⟨rfl, rfl⟩ := runs_unique added addedToo
            have ahead : second.step ≤ depth + 1 := by
              rw [same.step, here]
              exact Nat.le_succ depth
            obtain ⟨third, extended, knows', step⟩ :=
              exists_runs_extendTo built (same.knows knows) ahead inside
            rcases fails_bind_iff.mp fails with failed | ⟨_, third', extendedToo, fails⟩
            · exact absurd failed extended.not_fails
            obtain ⟨_, rfl⟩ := runs_unique extended extendedToo
            rcases ih knows' step (by omega) fails with ⟨isFailed, within, never⟩ | ⟨full, never⟩
            · exact .inl ⟨isFailed, within, Task.forall_from (fun _ => classifies) never⟩
            · exact .inr ⟨full, Task.forall_from (fun _ => classifies) never⟩
          · refine .inr ⟨by omega, Task.forall_from (fun _ => classifies) fun n after before => ?_⟩
            exact absurd before (by omega)

/-! ## Searches -/

theorem runs_checkStart_iff {start : Nat} {result : Unit} :
    Runs (checkStart start) search result search' ↔ start = search.step ∧ search = search' := by
  unfold checkStart
  rw [runs_bind_iff]
  constructor
  · rintro ⟨step, between, isReached, runs⟩
    rcases runs_reached_iff.mp isReached with ⟨rfl, rfl⟩
    rw [runs_ite_iff] at runs
    split at runs
    · exact absurd runs not_runs_fail
    · rename_i same
      exact ⟨not_not.mp same, (runs_pure_iff.mp runs).2⟩
  · rintro ⟨rfl, rfl⟩
    refine ⟨search.step, search, runs_reached_iff.mpr ⟨rfl, rfl⟩, ?_⟩
    rw [if_neg (not_not.mpr rfl)]
    exact runs_pure_iff.mpr ⟨rfl, rfl⟩

theorem fails_checkStart {start : Nat} (elsewhere : start ≠ search.step) :
    Fails (checkStart start) search (.fault (.startMismatch start search.step)) search := by
  refine fails_bind_iff.mpr (.inr ⟨_, _, runs_reached_iff.mpr ⟨rfl, rfl⟩, ?_⟩)
  rw [if_pos elsewhere]
  exact fails_fail_iff.mpr ⟨rfl, rfl⟩

/-- A search starts where it has come to.  It takes up its condition and is begun there, and then goes
through the depths. -/
theorem begun_of_runs {start : Nat} {f : Formula} {feedback : Feedback}
    (runs : Runs (evaluate solver task start f) search feedback search') :
    start = search.step ∧ ∃ begun,
      Runs (begin task search.step) { search with run := search.run ++ [f] } () begun ∧
        Runs (sweep solver task (task.configuration.bound + 1 - search.step) search.step) begun
          feedback search' := by
  rcases runs_bind_iff.mp runs with ⟨_, between, checked, runs⟩
  rcases runs_checkStart_iff.mp checked with ⟨rfl, rfl⟩
  rcases runs_bind_iff.mp runs with ⟨_, second, pushed, runs⟩
  obtain rfl := runs_push_iff.mp pushed
  rcases runs_bind_iff.mp runs with ⟨_, third, begun, runs⟩
  exact ⟨rfl, third, begun, runs⟩

theorem first_eq_of_runs {start : Nat} {f : Formula} {feedback : Feedback}
    (runs : Runs (evaluate solver task start f) search feedback search') : start = search.step :=
  (begun_of_runs runs).1

/-- One that fails in its queries has started there as well. -/
theorem first_eq_of_solverFailed {start : Nat} {f : Formula}
    (fails : Fails (evaluate solver task start f) search .solverFailed search') :
    start = search.step := by
  by_contra elsewhere
  have mismatch : Fails (evaluate solver task start f) search _ search :=
    fails_bind_iff.mpr (.inl (fails_checkStart elsewhere))
  exact nomatch fails.1.symm.trans mismatch.1

/-- A search answers for the runs that satisfy its conditions. -/
theorem runs_evaluate (built : task.WellBuilt) (sound : solver.Sound)
    (resumes : search.Resumes task condition) {f : Formula} {further : Valuation → Prop}
    (meaning : f.Expresses further) {start : Nat}
    (within : start ≤ task.configuration.bound + 1) {feedback : Feedback}
    (runs : Runs (evaluate solver task start f) search feedback search') :
    task.Answers (fun v => condition v ∧ further v) start feedback ∧
      search'.Knows task (fun v => condition v ∧ further v) ∧
        search'.step = feedback.depth task.configuration.bound := by
  obtain ⟨rfl, second, begun, runs⟩ := begun_of_runs runs
  obtain ⟨knows, step⟩ := runs_begin (resumes.push meaning) begun
  exact runs_sweep built sound knows step (Nat.add_sub_cancel' within) runs

/-- A search ends with an error only where a query is not answered, behind depths at which there is no
violation, or when it has come past all depths that are words. -/
theorem fails_evaluate (built : task.WellBuilt) (sound : solver.Sound)
    (resumes : search.Resumes task condition) {f : Formula} {further : Valuation → Prop}
    (meaning : f.Expresses further) {error : CheckError}
    (fails : Fails (evaluate solver task search.step f) search error search') :
    error = .solverFailed ∧ search'.step ≤ task.configuration.bound ∧
        (∀ n, search.step ≤ n → n < search'.step →
          ¬task.Possible (fun v => condition v ∧ further v) (task.Reaches n) n true) ∨
      Word.limit ≤ task.configuration.bound + 1 ∧
        ∀ n, search.step ≤ n → n < Word.limit →
          ¬task.Possible (fun v => condition v ∧ further v) (task.Reaches n) n true := by
  have started : Runs (checkStart search.step) search () search :=
    runs_checkStart_iff.mpr ⟨rfl, rfl⟩
  obtain ⟨third, begun⟩ := exists_runs_begin built search.step
    { search with run := search.run ++ [f] }
  obtain ⟨knows, step⟩ := runs_begin (resumes.push meaning) begun
  rcases fails_bind_iff.mp fails with failed | ⟨_, between, checked, fails⟩
  · exact absurd failed started.not_fails
  obtain ⟨_, rfl⟩ := runs_checkStart_iff.mp checked
  rcases fails_bind_iff.mp fails with failed | ⟨_, second, pushed, fails⟩
  · exact absurd failed not_fails_modify
  obtain rfl := runs_push_iff.mp pushed
  rcases fails_bind_iff.mp fails with failed | ⟨_, third', begunToo, fails⟩
  · exact absurd failed begun.not_fails
  obtain ⟨_, rfl⟩ := runs_unique begun begunToo
  rcases Nat.le_total search.step (task.configuration.bound + 1) with within | behind
  · exact fails_sweep built sound knows step (Nat.add_sub_cancel' within) fails
  · rw [Nat.sub_eq_zero_of_le behind] at fails
    rcases fails_bind_iff.mp fails with failed | ⟨_, fourth, _, fails⟩
    · exact absurd failed not_fails_log
    · exact absurd fails not_fails_pure

/-- So it has an answer if its solver answers, and the bound leaves room or there is a violation at a
depth that is a word. -/
theorem exists_runs_evaluate_of_answersFrom (built : task.WellBuilt) (sound : solver.Sound)
    (answersFrom : solver.AnswersFrom search.solver)
    (resumes : search.Resumes task condition) {f : Formula} {further : Valuation → Prop}
    (meaning : f.Expresses further)
    (ends : task.configuration.bound + 1 < Word.limit ∨ ∃ n, search.step ≤ n ∧ n < Word.limit ∧
      task.Possible (fun v => condition v ∧ further v) (task.Reaches n) n true) :
    ∃ feedback search', Runs (evaluate solver task search.step f) search feedback search' := by
  rcases runs_or_fails (evaluate solver task search.step f) search with ⟨feedback, runs⟩ | ⟨error, fails⟩
  · exact ⟨feedback, _, runs⟩
  rcases fails_evaluate built sound resumes meaning fails with ⟨isFailed, _⟩ | ⟨full, never⟩
  · have answered := (keptBySteps_answersFrom.keepsAt_evaluate answersFrom f fun _ => nofun).of_fails
      fails
    exact absurd isFailed answered.2
  · rcases ends with room | ⟨n, after, inside, possible⟩
    · exact absurd room (Nat.not_lt_of_le full)
    · exact absurd possible (never n after inside)

/-- A search with a correct solver and a bound that leaves room has an answer. -/
theorem exists_runs_evaluate (built : task.WellBuilt) (correct : solver.Correct)
    (room : task.configuration.bound + 1 < Word.limit)
    (resumes : search.Resumes task condition) {f : Formula} {further : Valuation → Prop}
    (meaning : f.Expresses further) :
    ∃ feedback search', Runs (evaluate solver task search.step f) search feedback search' :=
  exists_runs_evaluate_of_answersFrom built correct.sound (correct.answersFrom _) resumes meaning
    (.inl room)

end Search

end Trivalent
