import Trivalent.Proofs.Search.Reached
import Trivalent.Proofs.System.Equality

/-!
# Continued searches

A search may be continued again and again, each time under a further condition on the paths.  Where
it has come past a depth no path that it still searches is a violation there, and as a pessimistic
violation is an optimistic one nothing is lost by asking for pessimistic violations only where there
are optimistic ones.
-/

namespace Trivalent

namespace Search

open Trivalent.Action

variable {σ : Type} {solver : Sat.Solver σ} {task : Task} {start : σ} {conditions : List Formula}
  {search search' : Search σ} {condition : Formula} {feedback : Feedback} {first : Nat}

/-- A search that was begun and then continued some times, each time under a further condition on
the paths. -/
inductive Continued (solver : Sat.Solver σ) (task : Task) (start : σ) :
    List Formula → Search σ → Prop where
  | fresh : Continued solver task start [] (.initial start)
  | further {conditions : List Formula} {search search' : Search σ} {first : Nat}
      {condition : Formula} {feedback : Feedback}
      (continued : Continued solver task start conditions search)
      (isCondition : task.IsPathCondition condition)
      (runs : Runs (evaluate solver task first condition) search feedback search') :
      Continued solver task start (conditions ++ [condition]) search'

theorem Continued.paths (continued : Continued solver task start conditions search) :
    ∀ f ∈ conditions, task.IsPathCondition f := by
  induction continued with
  | fresh => exact fun f member => absurd member List.not_mem_nil
  | further _ isCondition _ ih =>
      exact List.forall_mem_append.mpr ⟨ih, List.forall_mem_singleton.mpr isCondition⟩

/-- A search may be continued under its conditions, and has come past no violation that satisfies
them. -/
structure Clears (task : Task) (conditions : List Formula) (search : Search σ) : Prop where
  resumes : search.Resumes task fun v => ∀ f ∈ conditions, f.eval v = true
  within : search.step ≤ task.configuration.bound + 1
  never : ∀ n < search.step, ¬task.Satisfiable conditions n true

theorem clears_initial (start : σ) : Clears task [] (.initial start) where
  resumes := resumes_fresh start
  within := Nat.zero_le _
  never n before := absurd before (Nat.not_lt_zero n)

/-- A search that is continued clears the depths up to where it comes, and a possible violation is no
definite one. -/
theorem Clears.of_runs (built : task.WellBuilt) (sound : solver.Sound)
    (clears : search.Clears task conditions)
    (runs : Runs (evaluate solver task first condition) search feedback search') :
    search'.Clears task (conditions ++ [condition]) ∧
      search'.step = feedback.depth task.configuration.bound ∧
        (feedback.verdict = .possible →
          ¬task.Satisfiable (conditions ++ [condition]) feedback.step false) := by
  obtain rfl := first_eq_of_runs runs
  have meaning : condition.Expresses fun v => condition.eval v = true := fun v => Iff.rfl
  obtain ⟨answers, knows, reached⟩ :=
    runs_evaluate built sound clears.resumes meaning clears.within runs
  have resumes := knows.resumes.append
  -- What was cleared before stays clear under one more condition.
  have earlier : ∀ n < search.step, ¬task.Satisfiable (conditions ++ [condition]) n true :=
    fun n before satisfiable => clears.never n before satisfiable.of_append
  cases answers with
  | exhausted none never =>
      obtain rfl := none
      rw [Feedback.depth_noneUpTo] at reached
      refine ⟨⟨resumes, Nat.le_of_eq reached, ?_⟩, reached, nofun⟩
      intro n before
      rcases Nat.lt_or_ge n search.step with isEarlier | later
      · exact earlier n isEarlier
      · rw [← Task.possible_iff_satisfiable built]
        exact never n later (by omega)
  | found n after within least finds =>
      rw [Feedback.depth_of_found finds.found, finds.step] at reached
      refine ⟨⟨resumes, by omega, ?_⟩, ?_, ?_⟩
      · intro m before
        rcases Nat.lt_or_ge m search.step with isEarlier | later
        · exact earlier m isEarlier
        · rw [← Task.possible_iff_satisfiable built]
          exact least m later (by omega)
      · rw [Feedback.depth_of_found finds.found, finds.step, reached]
      · intro possible
        rw [finds.step, ← Task.possible_iff_satisfiable built, ← finds.definite_iff, possible]
        exact nofun

/-- Whatever a search has come past it has cleared. -/
theorem Continued.clears (built : task.WellBuilt) (sound : solver.Sound)
    (continued : Continued solver task start conditions search) :
    search.Clears task conditions := by
  induction continued with
  | fresh => exact clears_initial start
  | further _ _ runs ih => exact (ih.of_runs built sound runs).1

end Search

/-- A valuation that satisfies the formulas of a violation pessimistically, and conditions on its
path, satisfies them optimistically as well.  So where nothing satisfies them optimistically nothing
does pessimistically, and a search that asks for pessimistic violations only where it has found an
optimistic one misses none: not before the depth where it ends, and not there if it answers that a
violation is possible. -/
theorem Task.satisfies_of_pessimistic {text : String} {system : System}
    {configuration : Configuration} (loaded : ModelFile.load text = .ok system)
    (validated : (configuration.validate system).2 = .ok ()) {task : Task}
    (isBuilt : (Task.build system configuration).2 = .ok task) :
    (∀ n < Word.limit, ∀ conditions : List Formula, (∀ f ∈ conditions, task.IsPathCondition f) →
      (∀ v : Valuation, v .wildcard = false → task.Satisfies conditions n v →
        task.Satisfies conditions n v.optimistic) ∧
      (¬task.Satisfiable conditions n true → ¬task.Satisfiable conditions n false)) ∧
    ∀ (σ : Type) (solver : Sat.Solver σ) (start : σ) (conditions : List Formula)
      (condition : Formula) (search search' : Search σ) (first : Nat) (feedback : Feedback),
      solver.Sound → Search.Continued solver task start conditions search →
        task.IsPathCondition condition →
          Action.Runs (Search.evaluate solver task first condition) search feedback search' →
            (∀ n < feedback.depth configuration.bound,
              ¬task.Satisfiable (conditions ++ [condition]) n false) ∧
            (feedback.verdict = .possible → ∀ n ≤ feedback.step,
              ¬task.Satisfiable (conditions ++ [condition]) n false) := by
  have declared := ModelFile.declared_of_load loaded
  have built := Task.wellBuilt_of_loaded loaded validated isBuilt
  obtain ⟨rfl, rfl, _⟩ := Task.build_ok isBuilt
  constructor
  · intro n room conditions paths
    constructor
    · exact fun v pessimistic => Satisfies.optimistic built declared room paths pessimistic
    · exact mt (Satisfiable.optimistic built declared room paths)
  · intro σ solver start conditions condition search search' first feedback sound continued
      isCondition runs
    obtain ⟨clears, reached, notDefinite⟩ :=
      (continued.clears built sound).of_runs built sound runs
    have cleared : ∀ n < feedback.depth task.configuration.bound,
        ¬task.Satisfiable (conditions ++ [condition]) n false := by
      intro n before satisfiable
      rw [← reached] at before
      exact clears.never n before (satisfiable.optimistic built declared
        (Nat.lt_trans before clears.resumes.room) (continued.further isCondition runs).paths)
    refine ⟨cleared, fun possible n within => ?_⟩
    rcases Nat.lt_or_eq_of_le within with before | rfl
    · apply cleared n
      rwa [Feedback.depth_of_found (by rw [possible]; exact nofun)]
    · exact notDefinite possible

/-- A process with three ways to its target: in one step if an unknown condition holds, in two if a
predicate holds that it forgets on the way, and in three anyhow.  Off the first way a continued search
finds the second, which is no definite violation, and off the first way the third is a violation
however unknown predicates are read. -/
theorem Task.satisfies_of_pessimistic_of_going :
    let text := "\x7b\"predicates\": \x7b\"x\": 0\x7d, \"processes\": [[" ++
      "\x7b\"source\": 0, \"destination\": 1, \"guard\": \"choice(false, false)\"\x7d, " ++
        "\x7b\"source\": 0, \"destination\": 2, \"assignments\": [" ++
          "\x7b\"predicate\": 0, \"RHS\": \"choice(false, false)\"\x7d]\x7d, " ++
        "\x7b\"source\": 2, \"destination\": 1, \"guard\": \"x\"\x7d, " ++
        "\x7b\"source\": 2, \"destination\": 3\x7d, " ++
        "\x7b\"source\": 3, \"destination\": 1\x7d]]\x7d"
    let unknown : Term := .choice (.literal false) (.literal false)
    let system : System := ⟨.ofList [("x", 0)], .empty,
      [⟨0, [⟨0, 1, unknown, []⟩, ⟨0, 2, .always, [⟨0, unknown⟩]⟩,
        ⟨2, 1, .plain (.predicate 0), []⟩, ⟨2, 3, .always, []⟩, ⟨3, 1, .always, []⟩]⟩]⟩
    let configuration : Configuration := ⟨.reachability, 1, [0], .all, 5, false, false⟩
    let state (t l : Nat) (x : Status) : WitnessStep :=
      ⟨t, [l], .ofList [("x", x)], none, false, false⟩
    let v : Valuation := fun
      | .location _ bit t _ => if bit = 0 then t = 1 ∨ t = 2 else t = 2 ∨ t = 3
      | .predicate _ bit t _ => if t = 0 then bit = .truth else bit = .unknown
      | _ => false
    ModelFile.load text = .ok system ∧ (configuration.validate system).2 = .ok () ∧
      v .wildcard = false ∧ Sat.splitting.Sound ∧
        ∃ task short long, (Task.build system configuration).2 = .ok task ∧
          Witness.formula system [state 0 0 .yes, state 1 1 .yes] = .ok short ∧
          Witness.formula system [state 0 0 .yes, state 1 2 .unknown] = .ok long ∧
          task.Satisfies [long, short.neg] 3 v ∧ task.Satisfies [long, short.neg] 3 v.optimistic ∧
          ∃ search feedback search',
            Search.Continued Sat.splitting task [] [.constant true] search ∧
            Action.Runs (Search.evaluate Sat.splitting task 1 short.neg) search feedback search' ∧
            feedback.verdict = .possible ∧ feedback.step = 2 ∧
            ∀ n ≤ 2, ¬task.Satisfiable [.constant true, short.neg] n false := by
  intro text unknown system configuration state v
  have loaded : ModelFile.load text = .ok system := by decide +kernel
  have validated : (configuration.validate system).2 = .ok () := by decide +kernel
  have sound := Sat.splitting_correct.sound
  let task : Task :=
    (Task.build system configuration).2.toOption.getD ⟨system, configuration, [], []⟩
  let path (witness : List WitnessStep) : Formula :=
    (Witness.formula system witness).toOption.getD (.constant false)
  let short := path [state 0 0 .yes, state 1 1 .yes]
  let long := path [state 0 0 .yes, state 1 2 .unknown]
  have isBuilt : (Task.build system configuration).2 = .ok task := eq_ok_getD (by decide +kernel) _
  have isShort : Witness.formula system [state 0 0 .yes, state 1 1 .yes] = .ok short :=
    eq_ok_getD (by decide +kernel) _
  have isLong : Witness.formula system [state 0 0 .yes, state 1 2 .unknown] = .ok long :=
    eq_ok_getD (by decide +kernel) _
  have satisfies : task.Satisfies [long, short.neg] 3 v :=
    ⟨by decide +kernel, by decide +kernel, by decide +kernel⟩
  let first := Search.evaluate Sat.splitting task 0 (.constant true) (.initial [])
  let second := Search.evaluate Sat.splitting task 1 short.neg first.state
  have found : (first.result >>= fun feedback => .ok feedback.step) = .ok 1 := by decide +kernel
  have finds : (second.result >>= fun feedback => .ok (feedback.verdict, feedback.step)) =
      .ok (.possible, 2) := by decide +kernel
  obtain ⟨_, isFirst, _⟩ := bind_eq_ok_iff.mp found
  obtain ⟨feedback, isSecond, isFeedback⟩ := bind_eq_ok_iff.mp finds
  obtain ⟨possible, step⟩ := Prod.mk.inj (Except.ok.inj isFeedback)
  obtain ⟨optimistic, searched⟩ := Task.satisfies_of_pessimistic loaded validated isBuilt
  have isSystem : task.system = system := (Task.build_ok isBuilt).1
  have always : task.IsPathCondition (.constant true) := ⟨[], .constant true, rfl, .inl rfl⟩
  have off : task.IsPathCondition short.neg := ⟨_, short, isSystem ▸ isShort, .inr rfl⟩
  have along : task.IsPathCondition long := ⟨_, long, isSystem ▸ isLong, .inl rfl⟩
  have paths : ∀ f ∈ [long, short.neg], task.IsPathCondition f :=
    List.forall_mem_cons.mpr ⟨along, List.forall_mem_singleton.mpr off⟩
  have continued : Search.Continued Sat.splitting task [] [.constant true] first.state :=
    .further .fresh always ⟨isFirst, rfl⟩
  have runs : Action.Runs (Search.evaluate Sat.splitting task 1 short.neg) first.state feedback
      second.state := ⟨isSecond, rfl⟩
  have clear := (searched _ _ _ _ _ _ _ _ _ sound continued off runs).2 possible
  rw [step] at clear
  exact ⟨loaded, validated, rfl, sound, task, short, long, isBuilt, isShort, isLong, satisfies,
    (optimistic 3 (by decide) _ paths).1 v rfl satisfies, first.state, feedback, second.state,
    continued, runs, possible, step, clear⟩

end Trivalent
