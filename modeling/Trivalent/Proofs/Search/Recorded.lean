import Trivalent.Proofs.Search.Called
import Trivalent.Proofs.Timing.Report

/-!
# Searches that are timed

A search that is timed does what it does where nothing is watched, whatever the clock shows.  The
queries that it records are those of which its events tell, each once and in order; only the durations
depend on the clock.
-/

namespace Trivalent

/-- Surroundings with a clock that has some readings still to come. -/
abbrev Ticking : Type → Type :=
  StateM (Nat → Nat)

instance : Clock Ticking where
  now := modifyGet fun readings => (readings 0, fun n => readings (n + 1))

/-- Surroundings with a clock that time queries. -/
abbrev Timed : Type → Type :=
  StateT Timings Ticking

namespace Timed

variable {α β : Type}

/-- Whatever the clock shows, a computation has the result `a`, and on the way it records queries of
some kinds behind those that were recorded before. -/
def Ends (x : Timed α) (a : α) (kinds : List (Phase × Bool)) : Prop :=
  ∀ timings readings, ∃ took readings',
    (x.run timings).run readings =
        ((a, { timings with queries := timings.queries ++ took }), readings') ∧
      took.map Query.kind = kinds

theorem ends_pure (a : α) : Ends (pure a) a [] :=
  fun _ readings => ⟨[], readings, by rw [List.append_nil]; rfl, rfl⟩

theorem Ends.bind {x : Timed α} {goOn : α → Timed β} {a : α} {b : β}
    {kinds later : List (Phase × Bool)} (early : Ends x a kinds) (late : Ends (goOn a) b later) :
    Ends (x >>= goOn) b (kinds ++ later) := by
  intro timings readings
  obtain ⟨took, readings', runs, isKinds⟩ := early timings readings
  obtain ⟨tookToo, readings'', runsToo, isLater⟩ :=
    late { timings with queries := timings.queries ++ took } readings'
  refine ⟨took ++ tookToo, readings'', ?_, ?_⟩
  · have step : ((x >>= goOn).run timings).run readings =
        match (x.run timings).run readings with
        | ((a, timings), readings) => ((goOn a).run timings).run readings := rfl
    rw [step, runs]
    exact runsToo.trans (by rw [List.append_assoc])
  · rw [List.map_append, isKinds, isLater]

/-- A query whose answer is recorded is timed from where it began. -/
theorem ends_timed (phase : Phase) (satisfiable : Bool) (a : α) :
    Ends (do
      let start ← Watch.now
      Watch.record phase satisfiable start
      return a) a [(phase, satisfiable)] := by
  intro timings readings
  exact ⟨[⟨phase, satisfiable, readings 1 - readings 0⟩], _, rfl, rfl⟩

theorem ends_untimed (a : α) : Ends (do let _ ← Watch.now; return a) a [] :=
  fun timings readings => ⟨[], _, by rw [List.append_nil]; rfl, rfl⟩

end Timed

/-! ## Actions that are timed -/

namespace Action

variable {σ α β : Type}

/-- A timed action does what it does where nothing is watched, and records the queries of which its
events tell. -/
def Records (action : Action Timed σ α) (plain : Action Id σ α) : Prop :=
  ∀ s, (action s).Ends (plain s) ((plain s).events.filterMap Event.query?)

theorem Records.bind {first : Action Timed σ α} {plain : Action Id σ α}
    {second : α → Action Timed σ β} {plainToo : α → Action Id σ β} (early : Records first plain)
    (late : ∀ a, Records (second a) (plainToo a)) :
    Records (first >>= second) (plain >>= plainToo) := by
  intro s
  have before := early s
  show (andThen first second s).Ends _ _
  unfold andThen
  rcases outcome : plain s with ⟨error | a, t, events⟩
  · have isPlain : (plain >>= plainToo) s = ⟨.error error, t, events⟩ := by
      rw [bind_of_error (by rw [outcome]), outcome]
    rw [isPlain, ← List.append_nil (List.filterMap _ _)]
    rw [outcome] at before
    apply before.bind
    exact Timed.ends_pure _
  · have isPlain : (plain >>= plainToo) s =
        { plainToo a t with events := events ++ (plainToo a t).events } := by
      rw [bind_of_ok (by rw [outcome]), outcome]
    rw [isPlain, List.filterMap_append, ← List.append_nil (List.filterMap _ (plainToo a t).events)]
    rw [outcome] at before
    apply before.bind
    apply (late a t).bind
    exact Timed.ends_pure _

theorem records_pure (a : α) : Records (pure a : Action Timed σ α) (pure a) :=
  fun _ => Timed.ends_pure _

theorem records_fail (error : CheckError) :
    Records (fail error : Action Timed σ α) (fail error) := fun _ => Timed.ends_pure _

theorem records_ofFault (value : Except Fault α) :
    Records (ofFault value : Action Timed σ α) (ofFault value) := fun _ => Timed.ends_pure _

theorem records_state : Records (state : Action Timed σ σ) state := fun _ => Timed.ends_pure _

theorem records_modify (f : σ → σ) : Records (modify f : Action Timed σ Unit) (modify f) :=
  fun _ => Timed.ends_pure _

theorem records_log {event : Event} (other : event.query? = none) :
    Records (log event : Action Timed σ Unit) (log event) := by
  intro s
  have ends := Timed.ends_pure (⟨.ok (), s, [event]⟩ : Outcome σ Unit)
  rw [log_apply, List.filterMap_cons_none other]
  exact ends

theorem Records.ite {condition : Prop} [Decidable condition] {first second : Action Timed σ α}
    {plain plainToo : Action Id σ α} (early : Records first plain)
    (late : Records second plainToo) :
    Records (if condition then first else second) (if condition then plain else plainToo) := by
  split
  · exact early
  · exact late

end Action

/-! ## Searches that are timed -/

namespace Search

open Trivalent.Action

variable {σ : Type} (solver : Sat.Solver σ) (task : Task)

theorem records_reached : Records (reached : Action Timed (Search σ) Nat) reached :=
  records_state.bind fun _ => records_pure _

theorem records_push (f : Formula) : Records (push f : Action Timed (Search σ) Unit) (push f) :=
  records_modify _

theorem records_begin (start : Nat) :
    Records (begin task start : Action Timed (Search σ) Unit) (begin task start) :=
  .ite ((records_ofFault _).bind records_push) (records_pure ())

theorem records_extend (steps : Nat) :
    Records (extend task steps : Action Timed (Search σ) Unit) (extend task steps) := by
  induction steps with
  | zero => exact records_pure ()
  | succ steps ih =>
      apply records_reached.bind
      intro step
      apply (records_ofFault _).bind
      intro f
      apply (records_push f).bind
      intro _
      exact (records_modify _).bind fun _ => ih

theorem records_extendTo (depth : Nat) :
    Records (extendTo task depth : Action Timed (Search σ) Unit) (extendTo task depth) :=
  records_reached.bind fun _ => records_extend task _

theorem records_checkStart (start : Nat) :
    Records (checkStart start : Action Timed (Search σ) Unit) (checkStart start) :=
  records_reached.bind fun _ => .ite (records_fail _) (records_pure ())

/-- A query is recorded once if it is answered, and not otherwise. -/
theorem records_query (property : Formula) (depth : Nat) (phase : Phase) :
    Records (query solver property depth phase) (query solver property depth phase) := by
  intro search
  rw [query_eq]
  unfold query
  cases solver.solve (solver.load search.solver (search.run ++ [property, reading phase])) with
  | mk answer state =>
      cases answer with
      | satisfiable v => exact Timed.ends_timed phase true _
      | unsatisfiable => exact Timed.ends_timed phase false _
      | failed => exact Timed.ends_untimed _

theorem records_classify (property : Formula) (depth : Nat) :
    Records (classify solver task property depth) (classify solver task property depth) := by
  apply (records_query solver property depth .optimistic).bind
  intro answer
  cases answer with
  | none => exact records_pure none
  | some v =>
      apply (records_ofFault _).bind
      intro witness
      apply (records_query solver property depth .definite).bind
      intro definite
      exact (records_log rfl).bind fun _ => records_pure _

theorem records_sweep (count depth : Nat) :
    Records (sweep solver task count depth) (sweep solver task count depth) := by
  induction count generalizing depth with
  | zero => exact (records_log rfl).bind fun _ => records_pure _
  | succ count ih =>
      apply (records_ofFault _).bind
      intro property
      apply (records_classify solver task property depth).bind
      intro answer
      cases answer with
      | some feedback => exact records_pure feedback
      | none =>
          apply (records_ofFault _).bind
          intro later
          exact (records_extendTo task later).bind fun _ => ih (depth + 1)

/-- A call of a search that is timed does what it does where nothing is watched, and records the
queries of which its events tell. -/
theorem records_call (call : Call) :
    Records (call.action solver task) (call.action solver task) := by
  cases call with
  | evaluate start condition =>
      apply (records_checkStart start).bind
      intro _
      apply (records_push condition).bind
      intro _
      apply (records_begin task start).bind
      intro _
      exact records_sweep solver task _ start
  | evaluateAt constraints depth start =>
      apply (records_checkStart start).bind
      intro _
      refine .ite ((records_fail _).bind fun _ => ?_) ?_
      all_goals
        apply (records_begin task start).bind
        intro _
        apply (records_extendTo task depth).bind
        intro _
        apply (records_ofFault _).bind
        intro property
        apply (records_classify solver task _ depth).bind
        intro answer
        cases answer with
        | none => exact records_pure _
        | some feedback => exact .ite (records_fail _) (records_pure feedback)

end Search

end Trivalent
