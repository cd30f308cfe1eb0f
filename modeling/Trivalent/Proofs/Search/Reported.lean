import Mathlib.Algebra.GroupWithZero.Nat
import Trivalent.Proofs.Search.Inquiries
import Trivalent.Proofs.Search.Recorded
import Trivalent.Proofs.System.Equality

/-!
# Reports on queries

The calls of a process are timed one after another, and the queries that they record are those that
were answered.  Its report has a line for every kind of query that was answered, and counts every
answered query once.  Unless a query is left unanswered, a definite query was answered for every
optimistic one that can be satisfied.
-/

namespace Trivalent

/-! ## Optimistic and definite queries -/

/-- For every optimistic query that can be satisfied there is a definite one. -/
def Balanced (recorded : List (Phase × Bool)) : Prop :=
  recorded.count (.definite, true) + recorded.count (.definite, false) =
    recorded.count (.optimistic, true)

theorem Balanced.append {recorded later : List (Phase × Bool)} (early : Balanced recorded)
    (late : Balanced later) : Balanced (recorded ++ later) := by
  unfold Balanced at *
  simp only [List.count_append]
  omega

/-- The kind of an answered query. -/
def Inquiry.kind? (inquiry : Inquiry) : Option (Phase × Bool) :=
  inquiry.event?.bind Event.query?

namespace Search

variable {σ : Type} {task : Task} {search : Search σ} {depth : Nat} {run : List Formula}
  {asked : List Inquiry} {result : Except CheckError Feedback} {call : Call}

theorem Classified.balanced {property : Formula} {result : Except CheckError (Option Feedback)}
    (classified : Classified task depth run property asked result)
    (answered : result ≠ .error .solverFailed) : Balanced (asked.filterMap Inquiry.kind?) := by
  cases classified with
  | failed => exact absurd rfl answered
  | refuted => rfl
  | violated answer _ =>
      cases answer with
      | failed => exact absurd rfl answered
      | satisfiable _ => rfl
      | unsatisfiable => rfl

theorem Sweeps.balanced (sweeps : Sweeps task depth run asked result)
    (answered : result ≠ .error .solverFailed) : Balanced (asked.filterMap Inquiry.kind?) := by
  induction sweeps with
  | exhausted | faulty => rfl
  | failed _ _ classified => exact classified.balanced (by simpa using answered)
  | found _ _ classified | stopped _ _ classified _ => exact classified.balanced nofun
  | passed _ _ classified _ _ ih =>
      rw [List.filterMap_append]
      exact (classified.balanced nofun).append (ih answered)

theorem Call.Asks.balanced (asks : call.Asks task search asked result)
    (answered : result ≠ .error .solverFailed) : Balanced (asked.filterMap Inquiry.kind?) := by
  cases asks with
  | evaluate _ sweeps => exact sweeps.balanced answered
  | evaluateFaulty | evaluateAtFaulty => rfl
  | evaluateAt _ classified =>
      apply classified.balanced
      rintro rfl
      exact answered rfl

/-! ## Calls of searches -/

/-- A call of some search, whose solver keeps a log. -/
structure Use : Type 1 where
  /-- The states of the solver. -/
  σ : Type
  /-- The solver. -/
  solver : Sat.Solver σ
  /-- The task of the search. -/
  task : Task
  /-- The search as the call finds it. -/
  search : Search (Sat.Logged σ)
  /-- The call. -/
  call : Call

namespace Use

/-- What a call leaves. -/
def outcome (use : Use) : Outcome (Search (Sat.Logged use.σ)) Feedback :=
  use.call.action use.solver.logged use.task use.search

/-- What a call does where it is timed. -/
def timed (use : Use) : Timed (Outcome (Search (Sat.Logged use.σ)) Feedback) :=
  use.call.action use.solver.logged use.task use.search

/-- The task of a call is built for a system that was loaded. -/
def Loaded (use : Use) : Prop :=
  ∃ text system configuration, ModelFile.load text = .ok system ∧
    (Task.build system configuration).2 = .ok use.task

/-- What a call asks.  Its queries follow the pattern of searches and are what is added to the log;
every answered one is told by one event and, where the call is timed, recorded once, and no event or
record tells of another.  Neither the log nor the clock changes anything. -/
structure Asks (use : Use) (asked : List Inquiry) : Prop where
  pattern : use.call.Asks use.task use.search asked use.outcome.result
  calls : use.outcome.state.solver.calls = use.search.solver.calls ++ asked.map Inquiry.call
  events : use.outcome.events.filter (·.query?.isSome) = asked.filterMap Inquiry.event?
  recorded : use.timed.Ends use.outcome (asked.filterMap Inquiry.kind?)
  unchanged : use.call.action use.solver use.task (use.search.mapSolver Sat.Logged.state) =
    ⟨use.outcome.result, use.outcome.state.mapSolver Sat.Logged.state, use.outcome.events⟩
  begins : (use.task.configuration.validate use.task.system).2 = .ok () →
    use.task.configuration.bound + 1 < Word.limit → use.call.GoesOn use.search →
      ∀ fault, use.outcome.result ≠ .error (.fault fault)

/-- The queries of which the events of a call tell are those that were answered. -/
theorem filterMap_query?_eq {events : List Event} {asked : List Inquiry}
    (told : events.filter (·.query?.isSome) = asked.filterMap Inquiry.event?) :
    events.filterMap Event.query? = asked.filterMap Inquiry.kind? := by
  have answered : events.filterMap Event.query? =
      (events.filter (·.query?.isSome)).filterMap Event.query? := by
    rw [List.filterMap_filter]
    apply List.filterMap_congr
    intro event _
    cases event.query? <;> simp
  rw [answered, told, List.filterMap_filterMap]
  rfl

theorem exists_asks (use : Use) (loaded : use.Loaded) : ∃ asked, use.Asks asked := by
  obtain ⟨σ, solver, task, search, call⟩ := use
  obtain ⟨text, system, configuration, isSystem, built⟩ := loaded
  obtain ⟨rfl, rfl, encoded, _⟩ := Task.build_ok built
  have fits := Encoding.fits_of_templates (ModelFile.numbered_of_load isSystem) encoded
  obtain ⟨asked, result, search', asks, gives⟩ := Search.exists_asks solver fits call search
  obtain ⟨rfl, rfl, calls, events⟩ := gives
  have recorded := records_call solver.logged task call search
  rw [filterMap_query?_eq events] at recorded
  refine ⟨asked, asks, calls, events, recorded,
    follows_call task solver.logged_follows call search, ?_⟩
  intro validated room goesOn
  exact asks.not_fault (Task.wellBuilt_of_loaded isSystem validated built) room goesOn

end Use

/-! ## Processes -/

/-- Some calls, one after another. -/
def calls : List Use → Timed Unit
  | [] => return ()
  | use :: rest => do
      let _ ← use.timed
      calls rest

/-- A process that makes some calls: its timings, and the time when it is over. -/
def process (uses : List Use) : Ticking (Timings × Nat) := do
  let ((), timings) ← (calls uses).run (← Timings.new)
  return (timings, ← Clock.now)

theorem exists_asks_calls {uses : List Use} (loaded : ∀ use ∈ uses, use.Loaded) :
    ∃ asked, List.Forall₂ Use.Asks uses asked ∧
      (calls uses).Ends () (asked.flatten.filterMap Inquiry.kind?) := by
  induction uses with
  | nil => exact ⟨[], .nil, Timed.ends_pure ()⟩
  | cons use rest ih =>
      rw [List.forall_mem_cons] at loaded
      obtain ⟨asked, asks⟩ := use.exists_asks loaded.1
      obtain ⟨later, asksToo, ends⟩ := ih loaded.2
      refine ⟨asked :: later, .cons asks asksToo, ?_⟩
      rw [List.flatten_cons, List.filterMap_append]
      exact asks.recorded.bind ends

theorem balanced_flatten {uses : List Use} {asked : List (List Inquiry)}
    (asks : List.Forall₂ Use.Asks uses asked)
    (answered : ∀ use ∈ uses, use.outcome.result ≠ .error .solverFailed) :
    Balanced (asked.flatten.filterMap Inquiry.kind?) := by
  induction asks with
  | nil => rfl
  | cons first _ ih =>
      rw [List.forall_mem_cons] at answered
      rw [List.flatten_cons, List.filterMap_append]
      exact (first.pattern.balanced answered.1).append (ih answered.2)

/-- The solver that satisfies every formula by the valuation that makes all atoms true. -/
def agreeing : Sat.Solver Unit where
  reset _ := ()
  add _ _ := ()
  solve _ := (.satisfiable fun _ => true, ())

end Search

end Trivalent
