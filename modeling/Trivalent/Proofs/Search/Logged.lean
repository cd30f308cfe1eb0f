import Trivalent.Proofs.Search.Called

/-!
# Solvers with a log

A search has nothing to do with its solver but to reset it, to give it formulas and to have it solve
them.  So a search does the same with a solver that follows another one, and in particular with one
that keeps a log of its calls.
-/

namespace Trivalent

/-! ## Solvers that follow others -/

namespace Sat.Solver

variable {σ τ : Type}

/-- Seen through `forget`, a solver does what another one does. -/
structure Follows (solver : Solver τ) (plain : Solver σ) (forget : τ → σ) : Prop where
  reset (state : τ) : forget (solver.reset state) = plain.reset (forget state)
  add (state : τ) (f : Formula) : forget (solver.add state f) = plain.add (forget state) f
  answer (state : τ) : (solver.solve state).1 = (plain.solve (forget state)).1
  solved (state : τ) : forget (solver.solve state).2 = (plain.solve (forget state)).2

theorem Follows.load {solver : Solver τ} {plain : Solver σ} {forget : τ → σ}
    (follows : solver.Follows plain forget) (state : τ) (formulas : List Formula) :
    forget (solver.load state formulas) = plain.load (forget state) formulas := by
  have added (held : τ) :
      forget (formulas.foldl solver.add held) = formulas.foldl plain.add (forget held) := by
    induction formulas generalizing held with
    | nil => rfl
    | cons f rest ih => rw [List.foldl_cons, List.foldl_cons, ih, follows.add]
  rw [Solver.load, Solver.load, added, follows.reset]

end Sat.Solver

namespace Sat

/-- The state of a solver that keeps a log. -/
structure Logged (σ : Type) where
  /-- The state of the solver. -/
  state : σ
  /-- The formulas that were given since the solver was reset. -/
  held : List Formula
  /-- The calls to solve, each with the formulas held and the answer, in order. -/
  calls : List (List Formula × Answer Valuation)

/-- A solver that keeps a log of what it is to solve and of what it answers. -/
def Solver.logged {σ : Type} (solver : Solver σ) : Solver (Logged σ) where
  reset s := { s with state := solver.reset s.state, held := [] }
  add s f := { s with state := solver.add s.state f, held := s.held ++ [f] }
  solve s :=
    let (answer, state) := solver.solve s.state
    (answer, { s with state, calls := s.calls ++ [(s.held, answer)] })

namespace Solver

variable {σ : Type} (solver : Solver σ)

theorem logged_follows : solver.logged.Follows solver Logged.state where
  reset _ := rfl
  add _ _ := rfl
  answer _ := rfl
  solved _ := rfl

theorem held_load_logged (state : Logged σ) (formulas : List Formula) :
    (solver.logged.load state formulas).held = formulas := by
  have added (s : Logged σ) :
      (formulas.foldl solver.logged.add s).held = s.held ++ formulas := by
    induction formulas generalizing s with
    | nil => simp
    | cons f rest ih =>
        rw [List.foldl_cons, ih, ← List.singleton_append, ← List.append_assoc]
        rfl
  rw [load, added]
  rfl

theorem calls_load_logged (state : Logged σ) (formulas : List Formula) :
    (solver.logged.load state formulas).calls = state.calls := by
  have added (s : Logged σ) : (formulas.foldl solver.logged.add s).calls = s.calls := by
    induction formulas generalizing s with
    | nil => rfl
    | cons f rest ih => rw [List.foldl_cons, ih]; rfl
  rw [load, added]
  rfl

/-- A call is logged with the formulas that the solver was loaded with. -/
theorem calls_solve_logged (state : Logged σ) (formulas : List Formula) :
    (solver.logged.solve (solver.logged.load state formulas)).2.calls =
      state.calls ++
        [(formulas, (solver.logged.solve (solver.logged.load state formulas)).1)] := by
  have solved (s : Logged σ) : (solver.logged.solve s).2.calls =
    s.calls ++ [(s.held, (solver.logged.solve s).1)] := rfl
  rw [solved, calls_load_logged, held_load_logged]

end Solver

end Sat

/-! ## Actions that follow others -/

namespace Action

variable {σ τ α β : Type} {forget : τ → σ}

/-- Seen through `forget`, an action does what another one does. -/
def Follows (forget : τ → σ) (action : Action Id τ α) (plain : Action Id σ α) : Prop :=
  ∀ s, plain (forget s) = ⟨(action s).result, forget (action s).state, (action s).events⟩

theorem Follows.bind {first : Action Id τ α} {plain : Action Id σ α} {second : α → Action Id τ β}
    {plainToo : α → Action Id σ β} (early : Follows forget first plain)
    (late : ∀ a, Follows forget (second a) (plainToo a)) :
    Follows forget (first >>= second) (plain >>= plainToo) := by
  intro s
  have result : (plain (forget s)).result = (first s).result := by rw [early s]
  cases outcome : (first s).result with
  | error error => rw [bind_of_error outcome, bind_of_error (result.trans outcome), early s]
  | ok a =>
      rw [bind_of_ok outcome, bind_of_ok (result.trans outcome), early s]
      dsimp only
      rw [late a]

theorem follows_pure (a : α) : Follows forget (pure a) (pure a) := fun _ => rfl

theorem follows_fail (error : CheckError) :
    Follows forget (fail error : Action Id τ α) (fail error) := fun _ => rfl

theorem follows_ofFault (value : Except Fault α) :
    Follows forget (ofFault value) (ofFault value) := fun _ => rfl

theorem follows_log (event : Event) : Follows forget (log event) (log event) := fun _ => rfl

theorem Follows.ite {condition : Prop} [Decidable condition] {first second : Action Id τ α}
    {plain plainToo : Action Id σ α} (early : Follows forget first plain)
    (late : Follows forget second plainToo) :
    Follows forget (if condition then first else second)
      (if condition then plain else plainToo) := by
  split
  · exact early
  · exact late

end Action

/-! ## Searches that follow others -/

namespace Search

open Trivalent.Action

variable {σ τ : Type} {forget : τ → σ}

/-- A search with another state of the solver. -/
def mapSolver (f : τ → σ) (search : Search τ) : Search σ :=
  ⟨f search.solver, search.run, search.step⟩

theorem follows_reached : Follows (mapSolver forget) reached reached := fun _ => rfl

theorem follows_push (f : Formula) : Follows (mapSolver forget) (push f) (push f) := fun _ => rfl

variable {solver : Sat.Solver τ} {plain : Sat.Solver σ} (task : Task)

theorem follows_begin (start : Nat) :
    Follows (mapSolver forget) (begin task start) (begin task start) :=
  .ite ((follows_ofFault _).bind follows_push) (follows_pure ())

theorem follows_extend (steps : Nat) :
    Follows (mapSolver forget) (extend task steps) (extend task steps) := by
  induction steps with
  | zero => exact follows_pure ()
  | succ steps ih =>
      apply follows_reached.bind
      intro step
      apply (follows_ofFault _).bind
      intro f
      apply (follows_push f).bind
      intro _
      exact Follows.bind (fun _ => rfl) fun _ => ih

theorem follows_extendTo (depth : Nat) :
    Follows (mapSolver forget) (extendTo task depth) (extendTo task depth) :=
  follows_reached.bind fun _ => follows_extend task _

theorem follows_checkStart (start : Nat) :
    Follows (mapSolver forget) (checkStart start) (checkStart start) :=
  follows_reached.bind fun _ => .ite (follows_fail _) (follows_pure ())

variable (follows : solver.Follows plain forget)

include follows

theorem follows_query (property : Formula) (depth : Nat) (phase : Phase) :
    Follows (mapSolver forget) (query solver property depth phase)
      (query plain property depth phase) := by
  intro search
  have loaded := follows.load search.solver (search.run ++ [property, reading phase])
  have answer := follows.answer (solver.load search.solver (search.run ++ [property, reading phase]))
  have solved := follows.solved (solver.load search.solver (search.run ++ [property, reading phase]))
  rw [loaded] at answer solved
  simp only [query_eq, mapSolver]
  generalize solver.solve _ = outcome at answer solved ⊢
  obtain ⟨answered, state⟩ := outcome
  obtain rfl := answer
  dsimp only at solved ⊢
  generalize plain.solve _ = outcome at solved ⊢
  obtain ⟨answered, state'⟩ := outcome
  obtain rfl := solved
  cases answered <;> rfl

theorem follows_classify (property : Formula) (depth : Nat) :
    Follows (mapSolver forget) (classify solver task property depth)
      (classify plain task property depth) := by
  apply (follows_query follows property depth .optimistic).bind
  intro answer
  cases answer with
  | none => exact follows_pure none
  | some v =>
      apply (follows_ofFault _).bind
      intro witness
      apply (follows_query follows property depth .definite).bind
      intro definite
      exact (follows_log _).bind fun _ => follows_pure _

theorem follows_sweep (count depth : Nat) :
    Follows (mapSolver forget) (sweep solver task count depth) (sweep plain task count depth) := by
  induction count generalizing depth with
  | zero => exact (follows_log _).bind fun _ => follows_pure _
  | succ count ih =>
      apply (follows_ofFault _).bind
      intro property
      apply (follows_classify task follows property depth).bind
      intro answer
      cases answer with
      | some feedback => exact follows_pure feedback
      | none =>
          apply (follows_ofFault _).bind
          intro later
          exact (follows_extendTo task later).bind fun _ => ih (depth + 1)

/-- A call of a search does the same with a solver that follows another one. -/
theorem follows_call (call : Call) :
    Follows (mapSolver forget) (call.action solver task) (call.action plain task) := by
  cases call with
  | evaluate start condition =>
      apply (follows_checkStart start).bind
      intro _
      apply (follows_push condition).bind
      intro _
      apply (follows_begin task start).bind
      intro _
      exact follows_sweep task follows _ start
  | evaluateAt constraints depth start =>
      apply (follows_checkStart start).bind
      intro _
      refine .ite ((follows_fail _).bind fun _ => ?_) ?_
      all_goals
        apply (follows_begin task start).bind
        intro _
        apply (follows_extendTo task depth).bind
        intro _
        apply (follows_ofFault _).bind
        intro property
        apply (follows_classify task follows _ depth).bind
        intro answer
        cases answer with
        | none => exact follows_pure _
        | some feedback => exact .ite (follows_fail _) (follows_pure feedback)

end Search

end Trivalent
