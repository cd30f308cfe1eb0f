import Trivalent.Proofs.Search.Reached

/-!
# Calls of a search

A search is called again and again, over all depths or at one of them, and any call may end with an
error.  Whatever its calls ended with, its run consists of the initial formula, of the formula of
every step up to where it has come, once each, and of the conditions of the calls over all depths.
The constraints of a call at one depth leave nothing behind.
-/

namespace Trivalent.Search

open Trivalent.Action

variable {σ : Type} {solver : Sat.Solver σ} {task : Task} {conditions : List Formula}
  {search search' : Search σ} {beginnings depth : Nat}

/-! ## What a run consists of -/

/-- The formulas of a run, in some order.  The initial formula stands there once for every time that
the search was begun at step 0. -/
structure Consists (task : Task) (beginnings : Nat) (conditions : List Formula)
    (search : Search σ) : Prop where
  room : search.step < Word.limit
  begun : search.step ≠ 0 → beginnings ≠ 0
  formulas : ∃ initial steps, task.initial = .ok initial ∧
    (List.range search.step).mapM task.step = .ok steps ∧
      search.run.Perm (List.replicate beginnings initial ++ (steps ++ conditions))

theorem consists_initial (built : task.WellBuilt) (start : σ) :
    (initial start).Consists task 0 [] := by
  obtain ⟨f, isInitial, _⟩ := Task.denotes_initial built
  exact ⟨Nat.two_pow_pos _, fun started => absurd rfl started, f, [], isInitial, rfl, .refl _⟩

namespace Consists

variable (consists : search.Consists task beginnings conditions)

include consists

/-- The formulas of a run say that its steps are unrolled and that its conditions hold. -/
theorem resumes : search.Resumes task fun v => ∀ f ∈ conditions, f.eval v = true := by
  obtain ⟨initial, steps, isInitial, areSteps, permuted⟩ := consists.formulas
  have unrolled (v : Valuation) : (∀ f ∈ steps, f.eval v = true) ↔
      ∀ t < search.step, Holds v (task.step t) := by
    constructor
    · intro all t before
      obtain ⟨f, member, isStep⟩ := exists_mem_of_mapM areSteps (List.mem_range.mpr before)
      rw [isStep, holds_ok]
      exact all f member
    · intro all f member
      obtain ⟨t, listed, isStep⟩ := exists_of_mem_mapM areSteps member
      have holds := all t (List.mem_range.mp listed)
      rwa [isStep, holds_ok] at holds
  refine ⟨consists.room, fun v starts => ?_⟩
  simp only [permuted.mem_iff, List.forall_mem_append, unrolled v]
  constructor
  · rintro ⟨begins, goesOn, holds⟩
    refine ⟨⟨?_, goesOn⟩, holds⟩
    by_cases zero : search.step = 0
    · exact starts zero
    · rw [isInitial, holds_ok]
      exact begins _ (List.mem_replicate.mpr ⟨consists.begun zero, rfl⟩)
  · rintro ⟨unrolls, holds⟩
    refine ⟨fun f member => ?_, unrolls.steps, holds⟩
    have begins := unrolls.initial
    rwa [isInitial, holds_ok, ← List.eq_of_mem_replicate member] at begins

theorem knows (begun : beginnings ≠ 0) :
    search.Knows task fun v => ∀ f ∈ conditions, f.eval v = true := by
  refine ⟨consists.room, fun v => ?_⟩
  obtain ⟨initial, _, isInitial, _, permuted⟩ := consists.formulas
  constructor
  · intro all
    refine (consists.resumes.run_iff v fun _ => ?_).mp all
    rw [isInitial, holds_ok]
    apply all
    rw [permuted.mem_iff]
    exact List.mem_append_left _ (List.mem_replicate.mpr ⟨begun, rfl⟩)
  · intro known
    exact (consists.resumes.run_iff v fun _ => known.1.initial).mpr known

theorem of_sameRun (same : search.SameRun search') :
    search'.Consists task beginnings conditions := by
  rcases same with ⟨run, step⟩
  constructor
  · rw [step]
    exact consists.room
  · rw [step]
    exact consists.begun
  · rw [run, step]
    exact consists.formulas

theorem takeUp (f : Formula) : Consists task beginnings (conditions ++ [f])
    { search with run := search.run ++ [f] } := by
  obtain ⟨initial, steps, isInitial, areSteps, permuted⟩ := consists.formulas
  refine ⟨consists.room, consists.begun, initial, steps, isInitial, areSteps, ?_⟩
  rw [← List.append_assoc steps, ← List.append_assoc]
  exact permuted.append_right [f]

theorem beginAgain {f : Formula} (isInitial : task.initial = .ok f) :
    Consists task (beginnings + 1) conditions { search with run := search.run ++ [f] } := by
  obtain ⟨initial, steps, isInitialToo, areSteps, permuted⟩ := consists.formulas
  obtain rfl := Except.ok.inj (isInitial.symm.trans isInitialToo)
  refine ⟨consists.room, fun _ => Nat.succ_ne_zero _, f, steps, isInitial, areSteps, ?_⟩
  rw [List.replicate_succ, List.cons_append]
  exact (List.perm_append_singleton f _).trans (permuted.cons f)

theorem goOn {f : Formula} (begun : beginnings ≠ 0) (room : search.step + 1 < Word.limit)
    (isStep : task.step search.step = .ok f) : Consists task beginnings conditions
      { search with run := search.run ++ [f], step := search.step + 1 } := by
  obtain ⟨initial, steps, isInitial, areSteps, permuted⟩ := consists.formulas
  refine ⟨room, fun _ => begun, initial, steps ++ [f], isInitial, ?_, ?_⟩
  · rw [List.range_succ, List.mapM_append, areSteps]
    simp [isStep]
    rfl
  · rw [← List.append_assoc] at permuted
    rw [List.append_assoc steps, List.singleton_append, ← List.append_assoc]
    calc (search.run ++ [f]).Perm (f :: search.run) := List.perm_append_singleton f _
      List.Perm _ (f :: (List.replicate beginnings initial ++ steps ++ conditions)) :=
        permuted.cons f
      List.Perm _ (List.replicate beginnings initial ++ steps ++ f :: conditions) :=
        List.perm_middle.symm

end Consists

/-! ## What calls leave -/

/-- Queries leave what the run consists of. -/
theorem keptByQueries_consists :
    KeptByQueries solver (fun search => search.Consists task beginnings conditions)
      fun _ => True where
  asked _ _ consists := consists.of_sameRun ⟨rfl, rfl⟩
  unanswered _ _ _ _ := trivial
  range _ _ := trivial

/-- Further steps are taken once each. -/
theorem Consists.extended {steps : Nat} (begun : beginnings ≠ 0)
    (consists : search.Consists task beginnings conditions)
    (room : search.step + steps < Word.limit) :
    (extend (m := Id) task steps search).state.Consists task beginnings conditions := by
  induction steps generalizing search with
  | zero => exact consists
  | succ steps ih =>
      have isReached : Runs reached search search.step search := runs_reached_iff.mpr ⟨rfl, rfl⟩
      rw [extend, isReached.bind_state]
      cases isStep : task.step search.step with
      | error fault =>
          have fails : Fails (.ofFault (.error fault) : Action Id (Search σ) Formula) search
            (.fault fault) search := fails_ofFault_iff.mpr ⟨fault, rfl, rfl, rfl⟩
          rw [bind_of_error fails.1]
          exact consists
      | ok f =>
          have here : search.step + 1 < Word.limit := by omega
          have found : Runs (.ofFault (.ok f) : Action Id (Search σ) Formula) search f search :=
            runs_ofFault_iff.mpr ⟨rfl, rfl⟩
          let taken : Search σ := { search with run := search.run ++ [f] }
          let further : Search σ := { taken with step := search.step + 1 }
          have pushed : Runs (push f) search () taken := runs_push_iff.mpr rfl
          have counted : Runs (.modify fun search : Search σ => { search with step := search.step + 1 })
            taken () further := runs_modify_iff.mpr rfl
          rw [found.bind_state, pushed.bind_state, counted.bind_state]
          apply ih (consists.goOn begun here isStep)
          show search.step + 1 + steps < Word.limit
          omega

theorem keeps_consists_extendTo (begun : beginnings ≠ 0) (room : depth < Word.limit) :
    Keeps (fun search : Search σ => search.Consists task beginnings conditions) (fun _ => True)
      (extendTo task depth) := by
  refine fun search consists => ⟨?_, fun _ _ => trivial⟩
  have isReached : Runs reached search search.step search := runs_reached_iff.mpr ⟨rfl, rfl⟩
  rw [extendTo, isReached.bind_state]
  apply consists.extended begun
  have := consists.room
  omega

/-- A sweep takes the steps up to where it ends, and nothing else. -/
theorem keeps_consists_sweep (begun : beginnings ≠ 0) (count depth : Nat) :
    Keeps (fun search : Search σ => search.Consists task beginnings conditions) (fun _ => True)
      (sweep solver task count depth) := by
  induction count generalizing depth with
  | zero => exact keeps_log.bind fun _ => keeps_pure
  | succ count ih =>
      refine (keeps_ofFault fun _ _ => trivial).bind fun f => ?_
      refine (keptByQueries_consists.keeps_classify f depth).bind fun answer => ?_
      cases answer with
      | some feedback => exact keeps_pure
      | none =>
          intro search consists
          refine (keeps_ofFault (fun _ _ => trivial) search consists).bind fun later _ isKept added => ?_
          rcases runs_ofFault_iff.mp added with ⟨isLater, rfl⟩
          rcases Word.add_eq_ok_iff.mp isLater with ⟨rfl, room⟩
          exact (keeps_consists_extendTo begun room).bind (fun _ => ih (depth + 1)) search isKept

/-- A search that is begun has its initial formula. -/
theorem Consists.begun_of_runs (consists : search.Consists task beginnings conditions)
    {result : Unit} (runs : Runs (begin task search.step) search result search') :
    ∃ beginnings', beginnings' ≠ 0 ∧ search'.Consists task beginnings' conditions := by
  unfold begin at runs
  rw [runs_ite_iff] at runs
  split at runs
  · rcases runs_bind_iff.mp runs with ⟨f, between, found, runs⟩
    rcases runs_ofFault_iff.mp found with ⟨isInitial, rfl⟩
    obtain rfl := runs_push_iff.mp runs
    exact ⟨beginnings + 1, Nat.succ_ne_zero _, consists.beginAgain isInitial⟩
  · rename_i started
    obtain ⟨_, rfl⟩ := runs_pure_iff.mp runs
    exact ⟨beginnings, consists.begun started, consists⟩

/-- A call over all depths takes up its condition. -/
theorem Consists.evaluated (built : task.WellBuilt)
    (consists : search.Consists task beginnings conditions) (condition : Formula) :
    ∃ beginnings', beginnings' ≠ 0 ∧
      (evaluate solver task search.step condition search).state.Consists task beginnings'
        (conditions ++ [condition]) := by
  have started : Runs (checkStart search.step) search () search := runs_checkStart_iff.mpr ⟨rfl, rfl⟩
  let taken : Search σ := { search with run := search.run ++ [condition] }
  have pushed : Runs (push condition) search () taken := runs_push_iff.mpr rfl
  obtain ⟨second, begun⟩ := exists_runs_begin built search.step taken
  obtain ⟨beginnings', some, consistsToo⟩ := (consists.takeUp condition).begun_of_runs begun
  rw [evaluate, started.bind_state, pushed.bind_state, begun.bind_state]
  exact ⟨beginnings', some, (keeps_consists_sweep some _ _ second consistsToo).1⟩

/-- A call at one depth leaves nothing but the steps up to there. -/
theorem Consists.evaluatedAt (built : task.WellBuilt)
    (consists : search.Consists task beginnings conditions) (constraints : List Formula)
    (ahead : search.step ≤ depth) (room : depth < Word.limit) :
    ∃ beginnings', beginnings' ≠ 0 ∧
      (evaluateAt solver task constraints depth search.step search).state.Consists task beginnings'
        conditions := by
  have started : Runs (checkStart search.step) search () search := runs_checkStart_iff.mpr ⟨rfl, rfl⟩
  obtain ⟨second, begun⟩ := exists_runs_begin built search.step search
  obtain ⟨beginnings', some, consistsToo⟩ := consists.begun_of_runs begun
  rw [evaluateAt, started.bind_state, if_neg (Nat.not_lt_of_le ahead), begun.bind_state]
  refine ⟨beginnings', some, ((keeps_consists_extendTo some room).bind (fun _ => ?_) second
    consistsToo).1⟩
  refine (keeps_ofFault fun _ _ => trivial).bind fun f => ?_
  refine (keptByQueries_consists.keeps_classify _ depth).bind fun answer => ?_
  cases answer with
  | none => exact keeps_pure
  | some feedback => exact keeps_ite (fun _ => keeps_fail trivial) fun _ => keeps_pure

/-! ## Calls -/

/-- A call of a search. -/
inductive Call where
  /-- A search of all depths from one on, under a further condition. -/
  | evaluate (start : Nat) (condition : Formula)
  /-- A search of one depth, under constraints of its own. -/
  | evaluateAt (constraints : List Formula) (depth start : Nat)

namespace Call

/-- What a call does. -/
def action {m : Type → Type} [Monad m] [Watch m] (solver : Sat.Solver σ) (task : Task) :
    Call → Action m (Search σ) Feedback
  | evaluate start condition => Search.evaluate solver task start condition
  | evaluateAt constraints depth start => Search.evaluateAt solver task constraints depth start

/-- The conditions that a call puts on the calls after it as well. -/
def lasting : Call → List Formula
  | evaluate _ condition => [condition]
  | evaluateAt _ _ _ => []

/-- The conditions and constraints of a call. -/
def formulas : Call → List Formula
  | evaluate _ condition => [condition]
  | evaluateAt constraints _ _ => constraints

theorem mem_formulas_of_lasting {call : Call} {f : Formula} (member : f ∈ call.lasting) :
    f ∈ call.formulas := by
  cases call with
  | evaluate => exact member
  | evaluateAt => exact absurd member List.not_mem_nil

/-- The depth that a call asks for, if it does, is a word. -/
def InRange : Call → Prop
  | evaluate _ _ => True
  | evaluateAt _ depth _ => depth < Word.limit

/-- A call goes on where a search has come to, and does not ask for less. -/
def GoesOn (search : Search σ) : Call → Prop
  | evaluate start _ => start = search.step
  | evaluateAt _ depth start => start = search.step ∧ start ≤ depth ∧ depth < Word.limit

end Call

/-- A search after some calls. -/
def after (solver : Sat.Solver σ) (task : Task) : List Call → Search σ → Search σ
  | [], search => search
  | call :: calls, search => after solver task calls (call.action solver task search).state

/-- Every call goes on where the ones before it have come to. -/
def AllGoOn (solver : Sat.Solver σ) (task : Task) : List Call → Search σ → Prop
  | [], _ => True
  | call :: calls, search =>
      call.GoesOn search ∧ AllGoOn solver task calls (call.action solver task search).state

variable (solver) in
/-- Nothing takes a search back. -/
theorem keptBySteps_ahead (n : Nat) :
    KeptBySteps solver (fun search => n ≤ search.step) fun _ => True where
  asked _ _ ahead := ahead
  unanswered _ _ _ _ := trivial
  range _ _ := trivial
  taken _ _ ahead := ahead
  counted _ ahead := Nat.le_succ_of_le ahead

/-- No call goes back. -/
theorem step_le_action (call : Call) (search : Search σ) :
    search.step ≤ (call.action solver task search).state.step := by
  have kept := keptBySteps_ahead solver search.step
  cases call with
  | evaluate start condition =>
      exact (kept.keepsAt_evaluate (Nat.le_refl _) condition fun _ => trivial).1
  | evaluateAt constraints depth start =>
      exact (kept.keepsAt_evaluateAt (Nat.le_refl _) constraints (fun _ => trivial) (fun _ => trivial)
        trivial).1

/-- A call that does not go on where the search has come to leaves everything as it was. -/
theorem action_of_not_goesOn {call : Call} (inRange : call.InRange)
    (notOn : ¬call.GoesOn search) : (call.action solver task search).state = search := by
  cases call with
  | evaluate start condition =>
      have fails : Fails (evaluate solver task start condition) search _ search :=
        fails_bind_iff.mpr (.inl (fails_checkStart notOn))
      exact fails.2
  | evaluateAt constraints depth start =>
      have notAhead : ¬(start = search.step ∧ start ≤ depth) :=
        fun goesOn => notOn ⟨goesOn.1, goesOn.2, inRange⟩
      obtain ⟨_, fails⟩ := exists_fault_evaluateAt solver task constraints notAhead
      exact fails.2

/-- A call leaves its conditions and the steps that it has come past. -/
theorem Consists.action (built : task.WellBuilt)
    (consists : search.Consists task beginnings conditions) {call : Call}
    (goesOn : call.GoesOn search) :
    ∃ beginnings', beginnings' ≠ 0 ∧
      (call.action solver task search).state.Consists task beginnings'
        (conditions ++ call.lasting) := by
  cases call with
  | evaluate start condition =>
      obtain rfl : start = search.step := goesOn
      exact consists.evaluated built condition
  | evaluateAt constraints depth start =>
      obtain ⟨rfl, ahead, room⟩ : start = search.step ∧ start ≤ depth ∧ depth < Word.limit := goesOn
      rw [Call.lasting, List.append_nil]
      exact consists.evaluatedAt built constraints ahead room

/-- So do all calls. -/
theorem Consists.afterCalls (built : task.WellBuilt)
    (consists : search.Consists task beginnings conditions) {calls : List Call}
    (goOn : AllGoOn solver task calls search) :
    ∃ beginnings', (beginnings ≠ 0 ∨ calls ≠ [] → beginnings' ≠ 0) ∧
      (after solver task calls search).Consists task beginnings'
        (conditions ++ calls.flatMap Call.lasting) := by
  induction calls generalizing search beginnings conditions with
  | nil =>
      rw [List.flatMap_nil, List.append_nil]
      exact ⟨beginnings, fun some => some.resolve_right (not_not.mpr rfl), consists⟩
  | cons call calls ih =>
      obtain ⟨goesOn, goOn⟩ := goOn
      obtain ⟨middle, begun, consistsToo⟩ := consists.action built goesOn
      obtain ⟨beginnings', some, consistsAll⟩ := ih consistsToo goOn
      rw [List.append_assoc] at consistsAll
      exact ⟨beginnings', fun _ => some (.inl begun), consistsAll⟩

variable (solver) in
/-- Of calls that need not go on where the search has come to, those that do leave their
conditions. -/
theorem Consists.afterAny (built : task.WellBuilt)
    (consists : search.Consists task beginnings conditions) {calls : List Call}
    (inRange : ∀ call ∈ calls, call.InRange) :
    ∃ beginnings' conditions', (after solver task calls search).Consists task beginnings' conditions' ∧
      ∀ f ∈ conditions', f ∈ conditions ∨ ∃ call ∈ calls, f ∈ call.lasting := by
  induction calls generalizing search beginnings conditions with
  | nil => exact ⟨beginnings, conditions, consists, fun _ member => .inl member⟩
  | cons call calls ih =>
      obtain ⟨here, later⟩ := List.forall_mem_cons.mp inRange
      by_cases goesOn : call.GoesOn search
      · obtain ⟨_, _, consistsToo⟩ := consists.action built goesOn
        obtain ⟨beginnings', conditions', consistsAll, known⟩ := ih consistsToo later
        refine ⟨beginnings', conditions', consistsAll, fun f member => ?_⟩
        rcases known f member with old | ⟨other, listed, taken⟩
        · rcases List.mem_append.mp old with older | taken
          · exact .inl older
          · exact .inr ⟨call, List.mem_cons_self, taken⟩
        · exact .inr ⟨other, List.mem_cons_of_mem _ listed, taken⟩
      · rw [after, action_of_not_goesOn here goesOn]
        obtain ⟨beginnings', conditions', consistsAll, known⟩ := ih consists later
        refine ⟨beginnings', conditions', consistsAll, fun f member => ?_⟩
        exact (known f member).imp_right fun ⟨other, listed, taken⟩ =>
          ⟨other, List.mem_cons_of_mem _ listed, taken⟩

end Trivalent.Search
