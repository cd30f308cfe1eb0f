import Trivalent.CheckError
import Trivalent.Event
import Trivalent.Loop

/-!
# Actions

An action works on a state, and may end with an error.  In either case the state stays as the action
left it, and everything that happened is kept in order.
-/

namespace Trivalent

/-- What an action leaves. -/
structure Outcome (σ α : Type) where
  /-- The result of the action, or why there is none. -/
  result : Except CheckError α
  /-- The state in which the action ended. -/
  state : σ
  /-- What happened, in order. -/
  events : List Event

/-- What an outcome is to a loop in which `earlier` happened before: something to go on with, or the
outcome of the loop. -/
def Outcome.inLoop {κ σ α : Type} (earlier : List Event) :
    Outcome σ (κ ⊕ α) → (κ × σ × List Event) ⊕ Outcome σ α
  | ⟨.ok (.inl k), state, events⟩ => .inl (k, state, earlier ++ events)
  | ⟨.ok (.inr a), state, events⟩ => .inr ⟨.ok a, state, earlier ++ events⟩
  | ⟨.error error, state, events⟩ => .inr ⟨.error error, state, earlier ++ events⟩

/-- An action on a state of type `σ`, in surroundings `m`. -/
def Action (m : Type → Type) (σ α : Type) : Type :=
  σ → m (Outcome σ α)

namespace Action

variable {m : Type → Type} [Monad m] {σ τ α β : Type}

/-- Does nothing. -/
def done (result : α) : Action m σ α := fun state =>
  return ⟨.ok result, state, []⟩

/-- Does one action after another one that succeeded. -/
def andThen (first : Action m σ α) (second : α → Action m σ β) : Action m σ β := fun state => do
  match ← first state with
  | ⟨.ok result, state, events⟩ =>
      let later ← second result state
      return { later with events := events ++ later.events }
  | ⟨.error error, state, events⟩ => return ⟨.error error, state, events⟩

instance : Monad (Action m σ) where
  pure := done
  bind := andThen

/-- Ends with an error. -/
def fail (error : CheckError) : Action m σ α := fun state =>
  return ⟨.error error, state, []⟩

/-- The value of a computation that may have a fault. -/
def ofFault (value : Except Fault α) : Action m σ α := fun state =>
  return ⟨value.mapError .fault, state, []⟩

/-- The state. -/
def state : Action m σ σ := fun state =>
  return ⟨.ok state, state, []⟩

/-- Changes the state. -/
def modify (f : σ → σ) : Action m σ Unit := fun state =>
  return ⟨.ok (), f state, []⟩

/-- Something happens. -/
def log (event : Event) : Action m σ Unit := fun state =>
  return ⟨.ok (), state, [event]⟩

/-- The result of a computation that keeps what happened. -/
def ofLogged (logged : List Event × Except CheckError α) : Action m σ α := fun state =>
  return ⟨logged.2, state, logged.1⟩

/-- An action on a part of a state. -/
def onPart (part : τ → σ) (put : τ → σ → τ) (action : Action m σ α) : Action m τ α :=
  fun state => do
    let outcome ← action (part state)
    return ⟨outcome.result, put state outcome.state, outcome.events⟩

/-- A turn of a loop, in a state and behind what happened in the turns before. -/
def turn {κ : Type} (step : κ → Action m σ (κ ⊕ α)) :
    κ × σ × List Event → m ((κ × σ × List Event) ⊕ Outcome σ α) := fun (k, state, events) => do
  return (← step k state).inLoop events

/-- Repeats an action until it has a result or ends with an error. -/
def repeatUntil {n : Type → Type} [Loops m n] {κ : Type} (step : κ → Action m σ (κ ⊕ α)) (k : κ) :
    Action n σ α := fun state =>
  Loops.repeatUntil (turn step) (k, state, [])

/-! ## Surroundings without effects -/

@[simp]
theorem fail_apply (error : CheckError) (s : σ) :
    (fail error : Action Id σ α) s = ⟨.error error, s, []⟩ := rfl

@[simp]
theorem ofFault_apply (value : Except Fault α) (s : σ) :
    (ofFault value : Action Id σ α) s = ⟨value.mapError .fault, s, []⟩ := rfl

@[simp]
theorem state_apply (s : σ) : (state : Action Id σ σ) s = ⟨.ok s, s, []⟩ := rfl

@[simp]
theorem modify_apply (f : σ → σ) (s : σ) : (modify f : Action Id σ Unit) s = ⟨.ok (), f s, []⟩ :=
  rfl

@[simp]
theorem log_apply (event : Event) (s : σ) :
    (log event : Action Id σ Unit) s = ⟨.ok (), s, [event]⟩ := rfl

@[simp]
theorem ofLogged_apply (logged : List Event × Except CheckError α) (s : σ) :
    (ofLogged logged : Action Id σ α) s = ⟨logged.2, s, logged.1⟩ := rfl

/-- An action goes on with the result of the one before it. -/
theorem bind_of_ok {first : Action Id σ α} {second : α → Action Id σ β} {state : σ} {value : α}
    (succeeds : (first state).result = .ok value) :
    (first >>= second) state =
      { second value (first state).state with
        events := (first state).events ++ (second value (first state).state).events } := by
  show andThen first second state = _
  unfold andThen
  cases outcome : first state with
  | mk result state' events =>
      rw [outcome] at succeeds
      subst succeeds
      rfl

/-- Behind an error nothing happens. -/
theorem bind_of_error {first : Action Id σ α} {second : α → Action Id σ β} {state : σ}
    {error : CheckError} (fails : (first state).result = .error error) :
    (first >>= second) state = ⟨.error error, (first state).state, (first state).events⟩ := by
  show andThen first second state = _
  unfold andThen
  cases outcome : first state with
  | mk result state' events =>
      rw [outcome] at fails
      subst fails
      rfl

instance [LawfulMonad m] : LawfulMonad (Action m σ) :=
  LawfulMonad.mk' (Action m σ)
    (fun action => by
      funext state
      simp only [Functor.map, andThen, done, Function.comp_def]
      conv => rhs; rw [← bind_pure (action state)]
      congr
      funext outcome
      obtain ⟨result, state', events⟩ := outcome
      cases result <;> simp)
    (fun value next => by
      funext state
      simp [pure, bind, andThen, done])
    (fun action next last => by
      funext state
      simp only [bind, andThen, bind_assoc]
      congr
      funext outcome
      obtain ⟨result, state', events⟩ := outcome
      cases result with
      | error => simp
      | ok value =>
          simp only [bind_assoc, pure_bind]
          congr
          funext outcome
          obtain ⟨result, state'', events'⟩ := outcome
          cases result <;> simp)

end Action

end Trivalent
