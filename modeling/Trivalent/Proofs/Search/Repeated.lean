import Trivalent.Proofs.Search.Action

/-!
# How loops end

A loop over an action ends if the action is repeated finitely often: each time but the last one it
names what to go on with, and at last it has a result or ends with an error.  Where that takes few
turns it is found by recursion on their number.
-/

namespace Trivalent

variable {κ σ α β : Type}

theorem Loop.result?_of_inl {loop : Loop Id κ α} {k k' : κ} (goesOn : loop.step k = .inl k') :
    loop.result? k = loop.result? k' := by
  rw [result?.eq_def, goesOn]

theorem Loop.result?_of_inr {loop : Loop Id κ α} {k : κ} {a : α} (ends : loop.step k = .inr a) :
    loop.result? k = some a := by
  rw [result?.eq_def, ends]

namespace Action

variable {step : κ → Action Id σ (κ ⊕ α)} {k k' : κ} {s t u : σ} {error : CheckError}
  {result : Except CheckError α}

/-- An action with loops ends in the state `s` with a result, and leaves the state `t`. -/
def EndsWith (action : Action Option σ α) (s : σ) (result : Except CheckError α) (t : σ) : Prop :=
  ∃ events, action s = some ⟨result, t, events⟩

/-- An action that is repeated from `k` on comes to a result. -/
inductive Repeats (step : κ → Action Id σ (κ ⊕ α)) :
    κ → σ → Except CheckError α → σ → Prop where
  | ends {k : κ} {s t : σ} {a : α} (runs : Runs (step k) s (.inr a) t) : Repeats step k s (.ok a) t
  | fails {k : κ} {s t : σ} {error : CheckError} (fails : Fails (step k) s error t) :
      Repeats step k s (.error error) t
  | goesOn {k k' : κ} {s t u : σ} {result : Except CheckError α}
      (runs : Runs (step k) s (.inl k') t) (rest : Repeats step k' t result u) :
      Repeats step k s result u

/-! ## Turns -/

/-- The loop over an action. -/
def loop (step : κ → Action Id σ (κ ⊕ α)) : Loop Id (κ × σ × List Event) (Outcome σ α) :=
  ⟨turn (m := Id) step⟩

/-- A turn is told by the outcome of its action. -/
theorem turn_eq {made : Except CheckError (κ ⊕ α)} (result : (step k s).result = made)
    (state : (step k s).state = t) (events : List Event) :
    (loop step).step (k, s, events) = Outcome.inLoop events ⟨made, t, (step k s).events⟩ := by
  subst result state
  rfl

/-- Every turn goes on, has a result or ends with an error. -/
theorem turn_cases (step : κ → Action Id σ (κ ⊕ α)) (k : κ) (s : σ) :
    (∃ k' t, Runs (step k) s (.inl k') t) ∨ (∃ a t, Runs (step k) s (.inr a) t) ∨
      ∃ error t, Fails (step k) s error t := by
  rcases runs_or_fails (step k) s with ⟨k' | a, runs⟩ | ⟨error, fails⟩
  · exact .inl ⟨k', _, runs⟩
  · exact .inr (.inl ⟨a, _, runs⟩)
  · exact .inr (.inr ⟨error, _, fails⟩)

/-! ## Loops -/

/-- A loop that has an outcome comes to it by repetition. -/
theorem repeats_of_result? (x : κ × σ × List Event) (outcome : Outcome σ α)
    (found : (loop step).result? x = some outcome) :
    Repeats step x.1 x.2.1 outcome.result outcome.state := by
  revert found
  apply Loop.result?.partial_correctness (loop step) fun x outcome =>
    Repeats step x.1 x.2.1 outcome.result outcome.state
  intro later ih x outcome found
  obtain ⟨k, s, events⟩ := x
  rcases turn_cases step k s with ⟨k', t, runs⟩ | ⟨a, t, runs⟩ | ⟨error, t, fails⟩
  · rw [turn_eq runs.1 runs.2] at found
    exact .goesOn runs (ih _ _ found)
  · rw [turn_eq runs.1 runs.2] at found
    obtain rfl := Option.some.inj found
    exact .ends runs
  · rw [turn_eq fails.1 fails.2] at found
    obtain rfl := Option.some.inj found
    exact .fails fails

theorem Repeats.exists_result? (repeats : Repeats step k s result t) (events : List Event) :
    ∃ events', (loop step).result? (k, s, events) = some ⟨result, t, events'⟩ := by
  induction repeats generalizing events with
  | ends runs => exact ⟨_, Loop.result?_of_inr (turn_eq runs.1 runs.2 events)⟩
  | fails fails => exact ⟨_, Loop.result?_of_inr (turn_eq fails.1 fails.2 events)⟩
  | goesOn runs _ ih =>
      rw [Loop.result?_of_inl (turn_eq runs.1 runs.2 events)]
      exact ih _

/-- A loop ends exactly as the repetition of its action does. -/
theorem endsWith_repeatUntil_iff :
    EndsWith (repeatUntil step k) s result t ↔ Repeats step k s result t := by
  constructor
  · rintro ⟨events, found⟩
    exact repeats_of_result? _ _ found
  · intro repeats
    exact repeats.exists_result? []

/-- What is repeated comes to one result only. -/
theorem Repeats.unique {result' : Except CheckError α} {t' : σ} (repeats : Repeats step k s result t)
    (repeatsToo : Repeats step k s result' t') : result = result' ∧ t = t' := by
  obtain ⟨_, first⟩ := repeats.exists_result? []
  obtain ⟨_, second⟩ := repeatsToo.exists_result? []
  cases first.symm.trans second
  exact ⟨rfl, rfl⟩

/-! ## Loops behind a check -/

theorem endsWith_ofLogged_ok {logged : List Event × Except CheckError β} {b : β}
    {loop : β → Action Option σ α} (valid : logged.2 = .ok b) :
    EndsWith (ofLogged logged >>= loop) s result t ↔ EndsWith (loop b) s result t := by
  obtain ⟨events, _⟩ := logged
  obtain rfl := valid
  have step : (ofLogged (events, Except.ok b) >>= loop) s =
      (loop b s).map fun outcome => { outcome with events := events ++ outcome.events } := by
    show (loop b s >>= fun outcome => some _) = _
    cases loop b s <;> rfl
  unfold EndsWith
  rw [step]
  constructor
  · rintro ⟨later, found⟩
    obtain ⟨outcome, isOutcome, same⟩ := Option.map_eq_some_iff.mp found
    cases same
    exact ⟨_, isOutcome⟩
  · rintro ⟨later, found⟩
    exact ⟨events ++ later, by rw [found]; rfl⟩

theorem endsWith_ofLogged_error {logged : List Event × Except CheckError β}
    {loop : β → Action Option σ α} (refused : logged.2 = .error error) :
    EndsWith (ofLogged logged >>= loop) s result t ↔ result = .error error ∧ s = t := by
  obtain ⟨events, _⟩ := logged
  obtain rfl := refused
  have step : (ofLogged (events, (Except.error error : Except CheckError β)) >>= loop) s =
      some ⟨.error error, s, events⟩ := rfl
  unfold EndsWith
  rw [step]
  constructor
  · rintro ⟨later, found⟩
    cases found
    exact ⟨rfl, rfl⟩
  · rintro ⟨rfl, rfl⟩
    exact ⟨events, rfl⟩

/-! ## A given number of turns -/

/-- Repeats an action for fewer than `count` turns; there is nothing if that is not enough. -/
def repeatWithin (step : κ → Action Id σ (κ ⊕ α)) :
    (count : Nat) → κ → σ → Option (Except CheckError α × σ)
  | 0, _, _ => none
  | count + 1, k, s =>
      match step k s with
      | ⟨.ok (.inl k), s, _⟩ => repeatWithin step count k s
      | ⟨.ok (.inr a), s, _⟩ => some (.ok a, s)
      | ⟨.error error, s, _⟩ => some (.error error, s)

theorem repeats_of_within {count : Nat}
    (found : repeatWithin step count k s = some (result, t)) : Repeats step k s result t := by
  induction count generalizing k s with
  | zero => contradiction
  | succ count ih =>
      rw [repeatWithin] at found
      split at found
      · rename_i k' s' _ isOutcome
        exact .goesOn ⟨by rw [isOutcome], by rw [isOutcome]⟩ (ih found)
      · rename_i a s' _ isOutcome
        cases found
        exact .ends ⟨by rw [isOutcome], by rw [isOutcome]⟩
      · rename_i error s' _ isOutcome
        cases found
        exact .fails ⟨by rw [isOutcome], by rw [isOutcome]⟩

end Action

end Trivalent
