import Trivalent.Proofs.Search.Logged

/-!
# What searches ask

A depth is classified by an optimistic query and, if that can be satisfied, by a definite query of the
same formulas.  A search of all depths passes the ones at which the optimistic query cannot be
satisfied, one after the other, and ends at the first one at which it can; a search of one depth asks
there only.  Where a query is left unanswered nothing more is asked.  The log of the solver tells all
queries in order, and the events tell those that were answered.
-/

namespace Trivalent

/-- A query that a solver was asked, and its answer. -/
structure Inquiry where
  /-- The depth at which it was asked. -/
  depth : Nat
  /-- Which query it was. -/
  phase : Phase
  /-- The formulas of the run. -/
  run : List Formula
  /-- The property that was asked for. -/
  property : Formula
  /-- The answer. -/
  answer : Sat.Answer Valuation

namespace Inquiry

/-- The call to solve that a query makes, with the formulas that the solver holds. -/
def call (inquiry : Inquiry) : List Formula × Sat.Answer Valuation :=
  (inquiry.run ++ [inquiry.property, Search.reading inquiry.phase], inquiry.answer)

/-- The event that tells that a query was answered, if it was. -/
def event? (inquiry : Inquiry) : Option Event :=
  match inquiry.answer with
  | .satisfiable _ => some (.answered inquiry.depth inquiry.phase true)
  | .unsatisfiable => some (.answered inquiry.depth inquiry.phase false)
  | .failed => none

end Inquiry

namespace Search

open Trivalent.Action

/-! ## The pattern of queries -/

/-- How a depth with a violation is classified by the answer to the definite query. -/
def concluded (depth : Nat) (witness : List WitnessStep) :
    Sat.Answer Valuation → Except CheckError (Option Feedback)
  | .satisfiable _ => .ok (some ⟨.definite, depth, witness⟩)
  | .unsatisfiable => .ok (some ⟨.possible, depth, witness⟩)
  | .failed => .error .solverFailed

/-- The queries that classify a depth, and how it is classified. -/
inductive Classified (task : Task) (depth : Nat) (run : List Formula) (property : Formula) :
    List Inquiry → Except CheckError (Option Feedback) → Prop where
  /-- There is no answer. -/
  | failed : Classified task depth run property
      [⟨depth, .optimistic, run, property, .failed⟩] (.error .solverFailed)
  /-- There is no violation. -/
  | refuted : Classified task depth run property
      [⟨depth, .optimistic, run, property, .unsatisfiable⟩] (.ok none)
  /-- There is a violation, so the definite query is asked. -/
  | violated {v : Valuation} {witness : List WitnessStep} (answer : Sat.Answer Valuation)
      (decoded : Witness.decode task.system task.configuration.fairness v depth = .ok witness) :
      Classified task depth run property
        [⟨depth, .optimistic, run, property, .satisfiable v⟩,
          ⟨depth, .definite, run, property, answer⟩]
        (concluded depth witness answer)

/-- The step from a depth to the next one. -/
def nextStep (task : Task) (depth : Nat) : Except Fault Formula := do
  let _ ← Word.add depth 1
  task.step depth

/-- The queries of a search of all depths from one on, with the formulas of the run so far, and how
the search ends. -/
inductive Sweeps (task : Task) :
    Nat → List Formula → List Inquiry → Except CheckError Feedback → Prop where
  /-- The bound is passed. -/
  | exhausted {depth : Nat} {run : List Formula} (past : task.configuration.bound < depth) :
      Sweeps task depth run [] (.ok (.noneUpTo task.configuration.bound))
  /-- There is no property to ask for. -/
  | faulty {depth : Nat} {run : List Formula} {fault : Fault}
      (within : depth ≤ task.configuration.bound) (isFault : task.property depth = .error fault) :
      Sweeps task depth run [] (.error (.fault fault))
  /-- A query has no answer. -/
  | failed {depth : Nat} {run : List Formula} {property : Formula} {asked : List Inquiry}
      {error : CheckError} (within : depth ≤ task.configuration.bound)
      (isProperty : task.property depth = .ok property)
      (classified : Classified task depth run property asked (.error error)) :
      Sweeps task depth run asked (.error error)
  /-- There is a violation. -/
  | found {depth : Nat} {run : List Formula} {property : Formula} {asked : List Inquiry}
      {feedback : Feedback} (within : depth ≤ task.configuration.bound)
      (isProperty : task.property depth = .ok property)
      (classified : Classified task depth run property asked (.ok (some feedback))) :
      Sweeps task depth run asked (.ok feedback)
  /-- There is no violation, and no next step either. -/
  | stopped {depth : Nat} {run : List Formula} {property : Formula} {asked : List Inquiry}
      {fault : Fault} (within : depth ≤ task.configuration.bound)
      (isProperty : task.property depth = .ok property)
      (classified : Classified task depth run property asked (.ok none))
      (isFault : nextStep task depth = .error fault) :
      Sweeps task depth run asked (.error (.fault fault))
  /-- There is no violation, and the search goes on. -/
  | passed {depth : Nat} {run : List Formula} {property step : Formula}
      {asked later : List Inquiry} {result : Except CheckError Feedback}
      (within : depth ≤ task.configuration.bound)
      (isProperty : task.property depth = .ok property)
      (classified : Classified task depth run property asked (.ok none))
      (isStep : nextStep task depth = .ok step)
      (goesOn : Sweeps task (depth + 1) (run ++ [step]) later result) :
      Sweeps task depth run (asked ++ later) result

variable {σ : Type}

/-- The initial state, if a search is to start at the beginning. -/
def beginning (task : Task) (start : Nat) : Except Fault (List Formula) :=
  if start = 0 then task.initial.map ([·]) else .ok []

/-- The steps that take a run up to a depth. -/
def stepsTo (task : Task) (start depth : Nat) : Except Fault (List Formula) :=
  (List.range' start (depth - start)).mapM task.step

/-- The run with which a search of all depths begins. -/
def opening (task : Task) (search : Search σ) (start : Nat) (condition : Formula) :
    Except Fault (List Formula) :=
  if start ≠ search.step then .error (.startMismatch start search.step)
  else return search.run ++ [condition] ++ (← beginning task start)

/-- The run and the property with which a search of one depth asks. -/
def openingAt (task : Task) (search : Search σ) (constraints : List Formula) (depth start : Nat) :
    Except Fault (List Formula × Formula) :=
  if start ≠ search.step then .error (.startMismatch start search.step)
  else if depth < start then .error .cannotShrink
  else do
    let initial ← beginning task start
    let steps ← stepsTo task start depth
    let property ← task.property depth
    return (search.run ++ initial ++ steps, .conj (constraints ++ [property]))

/-- The queries of a call of a search, and how the call ends.  A call that cannot begin asks
nothing. -/
inductive Call.Asks (task : Task) (search : Search σ) :
    Call → List Inquiry → Except CheckError Feedback → Prop where
  | evaluate {start : Nat} {condition : Formula} {run : List Formula} {asked : List Inquiry}
      {result : Except CheckError Feedback} (opened : opening task search start condition = .ok run)
      (sweeps : Sweeps task start run asked result) :
      Call.Asks task search (.evaluate start condition) asked result
  | evaluateFaulty {start : Nat} {condition : Formula} {fault : Fault}
      (isFault : opening task search start condition = .error fault) :
      Call.Asks task search (.evaluate start condition) [] (.error (.fault fault))
  | evaluateAt {constraints : List Formula} {depth start : Nat} {run : List Formula}
      {property : Formula} {asked : List Inquiry} {result : Except CheckError (Option Feedback)}
      (opened : openingAt task search constraints depth start = .ok (run, property))
      (classified : Classified task depth run property asked result) :
      Call.Asks task search (.evaluateAt constraints depth start) asked
        (result.bind (resultAt depth))
  | evaluateAtFaulty {constraints : List Formula} {depth start : Nat} {fault : Fault}
      (isFault : openingAt task search constraints depth start = .error fault) :
      Call.Asks task search (.evaluateAt constraints depth start) [] (.error (.fault fault))

/-! ## Actions with the queries that they ask -/

variable {α β : Type}

/-- An action ends in some way and leaves a search.  On the way it asks some queries, which are
logged, and of which its events tell those that are answered. -/
structure Gives (action : Action Id (Search (Sat.Logged σ)) α) (search : Search (Sat.Logged σ))
    (asked : List Inquiry) (result : Except CheckError α) (search' : Search (Sat.Logged σ)) :
    Prop where
  result : (action search).result = result
  state : (action search).state = search'
  calls : search'.solver.calls = search.solver.calls ++ asked.map Inquiry.call
  events : (action search).events.filter (·.query?.isSome) = asked.filterMap Inquiry.event?

section Gives

variable {search second third : Search (Sat.Logged σ)} {asked later : List Inquiry}
  {first : Action Id (Search (Sat.Logged σ)) α} {goOn : α → Action Id (Search (Sat.Logged σ)) β}

theorem Gives.bind {a : α} {result : Except CheckError β}
    (early : Gives first search asked (.ok a) second)
    (late : Gives (goOn a) second later result third) :
    Gives (first >>= goOn) search (asked ++ later) result third := by
  obtain ⟨isResult, rfl, calls, events⟩ := early
  obtain ⟨isLater, rfl, callsToo, eventsToo⟩ := late
  constructor
  · rw [bind_of_ok isResult, isLater]
  · rw [bind_of_ok isResult]
  · rw [callsToo, calls, List.map_append, List.append_assoc]
  · rw [bind_of_ok isResult, List.filter_append, events, eventsToo, List.filterMap_append]

/-- Behind an action that asks nothing, the queries are those of the next one. -/
theorem Gives.andThen {a : α} {result : Except CheckError β}
    (early : Gives first search [] (.ok a) second)
    (late : Gives (goOn a) second later result third) :
    Gives (first >>= goOn) search later result third :=
  early.bind late

/-- Before an action that asks nothing, the queries are those of the first one. -/
theorem Gives.bind_silent {a : α} {result : Except CheckError β}
    (early : Gives first search asked (.ok a) second)
    (late : Gives (goOn a) second [] result third) :
    Gives (first >>= goOn) search asked result third := by
  have both := early.bind late
  rwa [List.append_nil] at both

theorem Gives.bind_error {error : CheckError}
    (early : Gives first search asked (.error error) second) :
    Gives (first >>= goOn) search asked (.error error) second := by
  obtain ⟨isResult, rfl, calls, events⟩ := early
  constructor
  · rw [bind_of_error isResult]
  · rw [bind_of_error isResult]
  · exact calls
  · rw [bind_of_error isResult, events]

theorem gives_pure (a : α) : Gives (pure a) search [] (.ok a) search :=
  ⟨rfl, rfl, (List.append_nil _).symm, rfl⟩

theorem gives_fail (error : CheckError) :
    Gives (fail error : Action Id _ α) search [] (.error error) search :=
  ⟨rfl, rfl, (List.append_nil _).symm, rfl⟩

theorem gives_ofFault_ok {value : Except Fault α} {a : α} (found : value = .ok a) :
    Gives (ofFault value) search [] (.ok a) search := by
  subst found
  exact ⟨rfl, rfl, (List.append_nil _).symm, rfl⟩

theorem gives_ofFault_error {value : Except Fault α} {fault : Fault}
    (isFault : value = .error fault) :
    Gives (ofFault value) search [] (.error (.fault fault)) search := by
  subst isFault
  exact ⟨rfl, rfl, (List.append_nil _).symm, rfl⟩

theorem gives_log {event : Event} (other : event.query? = none) :
    Gives (log event) search [] (.ok ()) search := by
  refine ⟨rfl, rfl, (List.append_nil _).symm, ?_⟩
  simp [other]

theorem gives_push (f : Formula) :
    Gives (push f) search [] (.ok ()) { search with run := search.run ++ [f] } :=
  ⟨rfl, rfl, (List.append_nil _).symm, rfl⟩

end Gives

/-! ## Queries -/

variable {solver : Sat.Solver σ} {task : Task} {depth : Nat}

/-- What a query comes to by its answer. -/
def ofAnswer : Sat.Answer Valuation → Except CheckError (Option Valuation)
  | .satisfiable v => .ok (some v)
  | .unsatisfiable => .ok none
  | .failed => .error .solverFailed

variable (solver) in
/-- A query calls the solver once, with the run, the property and the reading of unknown
predicates. -/
theorem exists_gives_query (property : Formula) (depth : Nat) (phase : Phase)
    (search : Search (Sat.Logged σ)) :
    ∃ answer search', Gives (query solver.logged property depth phase) search
      [⟨depth, phase, search.run, property, answer⟩] (ofAnswer answer) search' ∧
        search.SameRun search' := by
  have logged := solver.calls_solve_logged search.solver (search.run ++ [property, reading phase])
  cases outcome : solver.logged.solve
      (solver.logged.load search.solver (search.run ++ [property, reading phase])) with
  | mk answer state =>
      rw [outcome] at logged
      refine ⟨answer, { search with solver := state }, ?_, rfl, rfl⟩
      cases answer <;> exact ⟨by simp [query_eq, outcome, ofAnswer], by simp [query_eq, outcome], logged,
        by simp [query_eq, outcome, Inquiry.event?, Event.query?]⟩

variable (solver) in
theorem exists_classified (fits : task.system.Fits) (property : Formula) (depth : Nat)
    (search : Search (Sat.Logged σ)) :
    ∃ asked result search', Classified task depth search.run property asked result ∧
      Gives (classify solver.logged task property depth) search asked result search' ∧
        search.SameRun search' := by
  obtain ⟨answer, second, optimistic, same⟩ :=
    exists_gives_query solver property depth .optimistic search
  cases answer with
  | failed => exact ⟨_, _, second, .failed, optimistic.bind_error, same⟩
  | unsatisfiable =>
      refine ⟨_, _, second, .refuted, ?_, same⟩
      exact optimistic.bind (gives_pure none)
  | satisfiable v =>
      have decoded := Witness.decode_of_fits fits task.configuration.fairness v depth
      obtain ⟨answer, third, definite, sameToo⟩ :=
        exists_gives_query solver property depth .definite second
      rw [same.run] at definite
      refine ⟨_, _, third, .violated answer decoded, ?_, same.trans sameToo⟩
      apply optimistic.bind
      apply (gives_ofFault_ok decoded).andThen
      cases answer with
      | failed => exact definite.bind_error
      | unsatisfiable => exact definite.bind ((gives_log rfl).andThen (gives_pure _))
      | satisfiable _ => exact definite.bind ((gives_log rfl).andThen (gives_pure _))

/-! ## The run -/

variable {search : Search (Sat.Logged σ)} {start : Nat}

theorem gives_reached : Gives reached search [] (.ok search.step) search :=
  ⟨rfl, rfl, (List.append_nil _).symm, rfl⟩

theorem gives_checkStart (here : start = search.step) :
    Gives (checkStart start) search [] (.ok ()) search := by
  apply gives_reached.andThen
  rw [if_neg (not_not.mpr here)]
  exact gives_pure ()

theorem gives_checkStart_elsewhere (elsewhere : start ≠ search.step) :
    Gives (checkStart start) search [] (.error (.fault (.startMismatch start search.step)))
      search := by
  apply gives_reached.andThen
  rw [if_pos elsewhere]
  exact gives_fail _

theorem gives_begin {formulas : List Formula} (begun : beginning task start = .ok formulas) :
    Gives (begin task start) search [] (.ok ())
      { search with run := search.run ++ formulas } := by
  unfold beginning at begun
  unfold begin
  split
  · rename_i atStart
    rw [if_pos atStart] at begun
    cases isInitial : task.initial with
    | error fault => rw [isInitial] at begun; contradiction
    | ok f =>
        rw [isInitial] at begun
        obtain rfl := Except.ok.inj begun
        exact (gives_ofFault_ok rfl).andThen (gives_push f)
  · rename_i later
    rw [if_neg later] at begun
    obtain rfl := Except.ok.inj begun
    rw [List.append_nil]
    exact gives_pure ()

theorem gives_begin_faulty {fault : Fault} (isFault : beginning task start = .error fault) :
    Gives (begin task start) search [] (.error (.fault fault)) search := by
  unfold beginning at isFault
  unfold begin
  split
  · rename_i atStart
    rw [if_pos atStart] at isFault
    cases isInitial : task.initial with
    | error fault =>
        rw [isInitial] at isFault
        obtain rfl := Except.error.inj isFault
        exact (gives_ofFault_error rfl).bind_error
    | ok f => rw [isInitial] at isFault; contradiction
  · rename_i later
    rw [if_neg later] at isFault
    contradiction

theorem gives_count :
    Gives (.modify fun search => { search with step := search.step + 1 }) search [] (.ok ())
      { search with step := search.step + 1 } :=
  ⟨rfl, rfl, (List.append_nil _).symm, rfl⟩

theorem gives_extend {steps : Nat} {formulas : List Formula}
    (made : (List.range' search.step steps).mapM task.step = .ok formulas) :
    Gives (extend task steps) search [] (.ok ())
      { search with run := search.run ++ formulas, step := search.step + steps } := by
  induction steps generalizing search formulas with
  | zero =>
      obtain rfl : [] = formulas := Except.ok.inj made
      rw [List.append_nil]
      exact gives_pure ()
  | succ steps ih =>
      rw [List.range'_succ, List.mapM_cons] at made
      rcases bind_eq_ok_iff.mp made with ⟨f, isStep, made⟩
      rcases bind_eq_ok_iff.mp made with ⟨later, madeLater, same⟩
      obtain rfl := Except.ok.inj same
      have goOn : Gives (extend task steps)
          { search with run := search.run ++ [f], step := search.step + 1 } [] (.ok ()) _ :=
        ih madeLater
      rw [List.append_assoc, Nat.add_right_comm] at goOn
      apply gives_reached.andThen
      apply (gives_ofFault_ok isStep).andThen
      apply (gives_push f).andThen
      exact gives_count.andThen goOn

theorem exists_gives_extend_faulty {steps : Nat} {fault : Fault}
    (isFault : (List.range' search.step steps).mapM task.step = .error fault) :
    ∃ search', Gives (extend task steps) search [] (.error (.fault fault)) search' := by
  induction steps generalizing search with
  | zero => exact nomatch isFault
  | succ steps ih =>
      rw [List.range'_succ, List.mapM_cons] at isFault
      cases isStep : task.step search.step with
      | error fault =>
          rw [isStep] at isFault
          obtain rfl := Except.error.inj isFault
          exact ⟨_, gives_reached.andThen (gives_ofFault_error isStep).bind_error⟩
      | ok f =>
          rw [isStep] at isFault
          cases madeLater : (List.range' (search.step + 1) steps).mapM task.step with
          | ok later =>
              rw [madeLater] at isFault
              contradiction
          | error fault =>
              rw [madeLater] at isFault
              obtain rfl := Except.error.inj isFault
              have goOn : ∃ search', Gives (extend task steps)
                  { search with run := search.run ++ [f], step := search.step + 1 } []
                    (.error (.fault fault)) search' := ih madeLater
              obtain ⟨search', goOn⟩ := goOn
              refine ⟨search', gives_reached.andThen ?_⟩
              apply (gives_ofFault_ok isStep).andThen
              apply (gives_push f).andThen
              exact gives_count.andThen goOn

theorem gives_extendTo (ahead : search.step ≤ depth) {formulas : List Formula}
    (made : stepsTo task search.step depth = .ok formulas) :
    Gives (extendTo task depth) search [] (.ok ())
      { search with run := search.run ++ formulas, step := depth } := by
  have extended := gives_extend made
  rw [Nat.add_sub_cancel' ahead] at extended
  exact gives_reached.andThen extended

theorem exists_gives_extendTo_faulty {fault : Fault}
    (isFault : stepsTo task search.step depth = .error fault) :
    ∃ search', Gives (extendTo task depth) search [] (.error (.fault fault)) search' := by
  obtain ⟨search', extended⟩ := exists_gives_extend_faulty isFault
  exact ⟨search', gives_reached.andThen extended⟩

theorem stepsTo_succ (task : Task) (depth : Nat) :
    stepsTo task depth (depth + 1) = (task.step depth).map ([·]) := by
  rw [stepsTo, Nat.add_sub_cancel_left, List.range'_one, List.mapM_cons]
  cases task.step depth <;> rfl

/-! ## Searches -/

/-- A search that goes on takes the next step, if there is one. -/
theorem exists_gives_next (here : search.step = depth)
    (goOn : Action Id (Search (Sat.Logged σ)) Feedback) :
    match nextStep task depth with
    | .error fault => ∃ search',
        Gives (do extendTo task (← .ofFault (Word.add depth 1)); goOn) search []
          (.error (.fault fault)) search'
    | .ok step => ∀ asked result search',
        Gives goOn { search with run := search.run ++ [step], step := depth + 1 } asked result
          search' →
        Gives (do extendTo task (← .ofFault (Word.add depth 1)); goOn) search asked result
          search' := by
  subst here
  unfold nextStep
  cases isNext : Word.add search.step 1 with
  | error fault => exact ⟨search, (gives_ofFault_error rfl).bind_error⟩
  | ok later =>
      obtain ⟨rfl, _⟩ := Word.add_eq_ok_iff.mp isNext
      have taken := stepsTo_succ task search.step
      cases isStep : task.step search.step with
      | error fault =>
          rw [isStep] at taken
          obtain ⟨search', stopped⟩ := exists_gives_extendTo_faulty taken
          exact ⟨search', (gives_ofFault_ok rfl).andThen stopped.bind_error⟩
      | ok step =>
          rw [isStep] at taken
          intro asked result search' later
          apply (gives_ofFault_ok rfl).andThen
          exact (gives_extendTo (Nat.le_succ _) taken).andThen later

variable (solver) in
/-- A search of all depths follows the pattern. -/
theorem exists_sweeps (fits : task.system.Fits) {count : Nat} (here : search.step = depth)
    (counts : task.configuration.bound + 1 - depth = count) :
    ∃ asked result search', Sweeps task depth search.run asked result ∧
      Gives (sweep solver.logged task count depth) search asked result search' := by
  induction count generalizing search depth with
  | zero =>
      have past : task.configuration.bound < depth := by omega
      exact ⟨_, _, search, .exhausted past, (gives_log rfl).andThen (gives_pure _)⟩
  | succ count ih =>
      have within : depth ≤ task.configuration.bound := by omega
      cases isProperty : task.property depth with
      | error fault =>
          refine ⟨_, _, search, .faulty within isProperty, ?_⟩
          exact (gives_ofFault_error isProperty).bind_error
      | ok property =>
          obtain ⟨asked, result, second, classified, gives, same⟩ :=
            exists_classified solver fits property depth search
          rcases result with error | _ | feedback
          · refine ⟨_, _, second, .failed within isProperty classified, ?_⟩
            exact (gives_ofFault_ok isProperty).andThen gives.bind_error
          · have goesOn := @exists_gives_next _ task _ _ (same.step.trans here)
              (sweep solver.logged task count (depth + 1))
            cases isNext : nextStep task depth with
            | error fault =>
                rw [isNext] at goesOn
                obtain ⟨search', stopped⟩ := goesOn
                refine ⟨_, _, search', .stopped within isProperty classified isNext, ?_⟩
                apply (gives_ofFault_ok isProperty).andThen
                exact gives.bind_silent stopped
            | ok step =>
                rw [isNext] at goesOn
                have deeper : ∃ later result search',
                    Sweeps task (depth + 1) (search.run ++ [step]) later result ∧
                      Gives (sweep solver.logged task count (depth + 1))
                        { second with run := second.run ++ [step], step := depth + 1 }
                        later result search' := by
                  rw [← same.run]
                  exact @ih (depth + 1) ⟨second.solver, second.run ++ [step], depth + 1⟩ rfl
                    (by omega)
                obtain ⟨later, result, search', sweeps, rest⟩ := deeper
                refine ⟨_, _, search', .passed within isProperty classified isNext sweeps, ?_⟩
                apply (gives_ofFault_ok isProperty).andThen
                exact gives.bind (goesOn later result search' rest)
          · refine ⟨_, _, second, .found within isProperty classified, ?_⟩
            apply (gives_ofFault_ok isProperty).andThen
            exact gives.bind_silent (gives_pure feedback)

variable (solver) in
theorem exists_asks_evaluate (fits : task.system.Fits) (start : Nat) (condition : Formula)
    (search : Search (Sat.Logged σ)) :
    ∃ asked result search', Call.Asks task search (.evaluate start condition) asked result ∧
      Gives (evaluate solver.logged task start condition) search asked result search' := by
  by_cases here : start = search.step
  · have opened : opening task search start condition =
        (do return search.run ++ [condition] ++ (← beginning task start)) :=
      if_neg (not_not.mpr here)
    cases begun : beginning task start with
    | error fault =>
        rw [begun] at opened
        exact ⟨_, _, _, .evaluateFaulty opened, (gives_checkStart here).andThen
          ((gives_push condition).andThen (gives_begin_faulty begun).bind_error)⟩
    | ok formulas =>
        rw [begun] at opened
        obtain ⟨asked, result, search', sweeps, gives⟩ := @exists_sweeps _ solver task start
          ⟨search.solver, search.run ++ [condition] ++ formulas, search.step⟩ fits _ here.symm rfl
        refine ⟨asked, result, search', .evaluate opened sweeps, ?_⟩
        apply (gives_checkStart here).andThen
        apply (gives_push condition).andThen
        exact (gives_begin begun).andThen gives
  · exact ⟨_, _, _, .evaluateFaulty (if_pos here), (gives_checkStart_elsewhere here).bind_error⟩

/-- A search of one depth ends as the depth is classified. -/
theorem Gives.bind_resultAt {action : Action Id (Search (Sat.Logged σ)) (Option Feedback)}
    {search' : Search (Sat.Logged σ)} {asked : List Inquiry}
    {result : Except CheckError (Option Feedback)}
    (gives : Gives action search asked result search') :
    Gives (do
      match ← action with
      | none => return .noneUpTo depth
      | some feedback =>
          if feedback.verdict = .possible then .fail (.uncertain depth) else return feedback)
      search asked (result.bind (resultAt depth)) search' := by
  rcases result with error | _ | feedback
  · exact gives.bind_error
  · exact gives.bind_silent (gives_pure _)
  · apply gives.bind_silent
    dsimp only [Except.bind, resultAt]
    split
    · exact gives_fail _
    · exact gives_pure feedback

/-- The run of a search up to a depth, and the property there. -/
def upTo (task : Task) (search : Search σ) (depth : Nat) : Except Fault (List Formula × Formula) := do
  let initial ← beginning task search.step
  let steps ← stepsTo task search.step depth
  let property ← task.property depth
  return (search.run ++ initial ++ steps, property)

/-- A search of one depth brings its run there and asks for the property, unless there is a
fault. -/
theorem exists_gives_upTo (ahead : search.step ≤ depth)
    (goOn : Formula → Action Id (Search (Sat.Logged σ)) β) :
    match upTo task search depth with
    | .error fault => ∃ search',
        Gives (do
          begin task search.step
          extendTo task depth
          goOn (← .ofFault (task.property depth))) search [] (.error (.fault fault)) search'
    | .ok (run, property) => ∀ asked result search',
        Gives (goOn property) { search with run, step := depth } asked result search' →
        Gives (do
          begin task search.step
          extendTo task depth
          goOn (← .ofFault (task.property depth))) search asked result search' := by
  unfold upTo
  cases begun : beginning task search.step with
  | error fault => exact ⟨_, (gives_begin_faulty begun).bind_error⟩
  | ok initial =>
      have begins := @gives_begin _ task search search.step initial begun
      cases taken : stepsTo task search.step depth with
      | error fault =>
          obtain ⟨search', stopped⟩ := @exists_gives_extendTo_faulty _ task depth
            ⟨search.solver, search.run ++ initial, search.step⟩ fault taken
          exact ⟨search', begins.andThen stopped.bind_error⟩
      | ok steps =>
          have extended := @gives_extendTo _ task depth
            ⟨search.solver, search.run ++ initial, search.step⟩ ahead steps taken
          cases task.property depth with
          | error fault =>
              refine ⟨⟨search.solver, search.run ++ initial ++ steps, depth⟩, ?_⟩
              apply begins.andThen
              apply extended.andThen
              exact (gives_ofFault_error rfl).bind_error
          | ok property =>
              intro asked result search' later
              apply begins.andThen
              apply extended.andThen
              exact (gives_ofFault_ok rfl).andThen later

theorem openingAt_eq (ahead : search.step ≤ depth) (constraints : List Formula) :
    openingAt task search constraints depth search.step =
      (upTo task search depth).map fun reached => (reached.1, .conj (constraints ++ [reached.2])) := by
  rw [openingAt, if_neg (not_not.mpr rfl), if_neg (Nat.not_lt.mpr ahead), upTo]
  cases beginning task search.step with
  | error fault => rfl
  | ok initial =>
      cases stepsTo task search.step depth with
      | error fault => rfl
      | ok steps => cases task.property depth <;> rfl

variable (solver) in
theorem exists_asks_evaluateAt (fits : task.system.Fits) (constraints : List Formula)
    (depth start : Nat) (search : Search (Sat.Logged σ)) :
    ∃ asked result search', Call.Asks task search (.evaluateAt constraints depth start) asked result ∧
      Gives (evaluateAt solver.logged task constraints depth start) search asked result search' := by
  by_cases here : start = search.step
  case neg =>
    exact ⟨_, _, _, .evaluateAtFaulty (if_pos here), (gives_checkStart_elsewhere here).bind_error⟩
  subst here
  have checks : Gives (checkStart search.step) search [] (.ok ()) search := gives_checkStart rfl
  by_cases behind : depth < search.step
  case pos =>
    have opened : openingAt task search constraints depth search.step = .error .cannotShrink := by
      rw [openingAt, if_neg (not_not.mpr rfl), if_pos behind]
    refine ⟨_, _, search, .evaluateAtFaulty opened, checks.andThen ?_⟩
    rw [if_pos behind]
    exact (gives_fail _).bind_error
  have ahead := Nat.le_of_not_lt behind
  have opened := @openingAt_eq _ task depth search ahead constraints
  have prepared := @exists_gives_upTo _ _ task depth search ahead fun property => do
    match ← classify solver.logged task (.conj (constraints ++ [property])) depth with
    | none => return .noneUpTo depth
    | some feedback =>
        if feedback.verdict = .possible then .fail (.uncertain depth) else return feedback
  cases isReached : upTo task search depth with
  | error fault =>
      rw [isReached] at opened prepared
      obtain ⟨search', stopped⟩ := prepared
      refine ⟨_, _, search', .evaluateAtFaulty opened, checks.andThen ?_⟩
      rw [if_neg behind]
      exact stopped
  | ok reached =>
      obtain ⟨run, property⟩ := reached
      rw [isReached] at opened prepared
      obtain ⟨asked, result, search', classified, gives, _⟩ :=
        exists_classified solver fits (.conj (constraints ++ [property])) depth
          ⟨search.solver, run, depth⟩
      refine ⟨asked, _, search', .evaluateAt opened classified, checks.andThen ?_⟩
      rw [if_neg behind]
      exact prepared _ _ _ gives.bind_resultAt

variable (solver) in
/-- Every call of a search follows the pattern. -/
theorem exists_asks (fits : task.system.Fits) (call : Call) (search : Search (Sat.Logged σ)) :
    ∃ asked result search', call.Asks task search asked result ∧
      Gives (call.action solver.logged task) search asked result search' := by
  cases call with
  | evaluate start condition => exact exists_asks_evaluate solver fits start condition search
  | evaluateAt constraints depth start =>
      exact exists_asks_evaluateAt solver fits constraints depth start search

/-! ## Calls that begin -/

theorem exists_stepsTo (built : task.WellBuilt) (room : depth < Word.limit) (start : Nat) :
    ∃ steps, stepsTo task start depth = .ok steps := by
  have each : ∀ step ∈ List.range' start (depth - start), ∃ f, task.step step = .ok f ∧ True := by
    intro step member
    rw [List.mem_range'_1] at member
    have inside : step + 1 < Word.limit := by omega
    obtain ⟨f, isStep, _⟩ := Task.denotes_step built inside
    exact ⟨f, isStep, trivial⟩
  obtain ⟨steps, taken, _⟩ := mapM_ok each
  exact ⟨steps, taken⟩

theorem exists_beginning (built : task.WellBuilt) (start : Nat) :
    ∃ formulas, beginning task start = .ok formulas := by
  unfold beginning
  split
  · obtain ⟨f, isInitial, _⟩ := Task.denotes_initial built
    exact ⟨[f], by rw [isInitial]; rfl⟩
  · exact ⟨[], rfl⟩

theorem Classified.not_fault {run : List Formula} {property : Formula} {asked : List Inquiry}
    {result : Except CheckError (Option Feedback)}
    (classified : Classified task depth run property asked result) (fault : Fault) :
    result ≠ .error (.fault fault) := by
  cases classified with
  | failed | refuted => exact nofun
  | violated answer _ => cases answer <;> exact nofun

theorem Sweeps.not_fault (built : task.WellBuilt)
    (room : task.configuration.bound + 1 < Word.limit) {run : List Formula}
    {asked : List Inquiry} {result : Except CheckError Feedback}
    (sweeps : Sweeps task depth run asked result) (fault : Fault) :
    result ≠ .error (.fault fault) := by
  induction sweeps with
  | exhausted | found => exact nofun
  | @faulty depth run _ _ isFault =>
      obtain ⟨f, isProperty, _⟩ := Task.denotes_property built depth
      rw [isProperty] at isFault
      contradiction
  | failed _ _ classified =>
      have notFault := classified.not_fault fault
      simpa using notFault
  | @stopped depth run _ _ _ within _ _ isFault =>
      have inside : depth + 1 < Word.limit := by omega
      obtain ⟨f, isStep, _⟩ := Task.denotes_step built inside
      rw [nextStep, Word.add_eq_ok_iff.mpr ⟨rfl, inside⟩] at isFault
      cases isFault.symm.trans isStep
  | passed _ _ _ _ _ ih => exact ih

/-- A call that goes on where the search has come to does begin, and no number leaves its range. -/
theorem Call.Asks.not_fault (built : task.WellBuilt)
    (room : task.configuration.bound + 1 < Word.limit) {search : Search σ} {call : Call}
    (goesOn : call.GoesOn search) {asked : List Inquiry} {result : Except CheckError Feedback}
    (asks : call.Asks task search asked result) (fault : Fault) :
    result ≠ .error (.fault fault) := by
  cases asks with
  | evaluate _ sweeps => exact sweeps.not_fault built room fault
  | @evaluateFaulty start _ _ isFault =>
      have here : start = search.step := goesOn
      obtain ⟨formulas, begun⟩ := exists_beginning built start
      rw [opening, if_neg (not_not.mpr here), begun] at isFault
      contradiction
  | @evaluateAt _ _ _ _ _ _ result _ classified =>
      rcases result with error | _ | feedback
      · simpa [Except.bind] using classified.not_fault fault
      · exact nofun
      · dsimp only [Except.bind, resultAt]
        split <;> exact nofun
  | @evaluateAtFaulty _ depth start _ isFault =>
      obtain ⟨here, ahead, inside⟩ := goesOn
      obtain ⟨formulas, begun⟩ := exists_beginning built start
      obtain ⟨steps, taken⟩ := exists_stepsTo built inside start
      obtain ⟨f, isProperty, _⟩ := Task.denotes_property built depth
      rw [openingAt, if_neg (not_not.mpr here), if_neg (Nat.not_lt.mpr ahead), begun, taken,
        isProperty] at isFault
      contradiction

end Search

end Trivalent
