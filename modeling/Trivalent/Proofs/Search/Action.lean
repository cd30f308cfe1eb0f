import Trivalent.Search.Action

/-!
# How actions end

`Runs action s a t` tells that an action succeeds in the state `s` with the result `a` and leaves the
state `t`; `Fails action s error t` tells that it ends there with an error.  Every way to make an
action tells exactly when it does either.  `Keeps P E action` tells that an action keeps a property of
the state, whatever it ends with, and what kind of errors it has.
-/

namespace Trivalent.Action

variable {σ τ α β : Type}

/-- An action succeeds in the state `s` with the result `a`, and leaves the state `t`. -/
def Runs (action : Action Id σ α) (s : σ) (a : α) (t : σ) : Prop :=
  (action s).result = .ok a ∧ (action s).state = t

theorem runs_bind_iff {first : Action Id σ α} {second : α → Action Id σ β} {s u : σ} {b : β} :
    Runs (first >>= second) s b u ↔ ∃ a t, Runs first s a t ∧ Runs (second a) t b u := by
  constructor
  · intro ⟨result, state⟩
    cases outcome : (first s).result with
    | error error =>
        rw [bind_of_error outcome] at result
        contradiction
    | ok a =>
        rw [bind_of_ok outcome] at result state
        exact ⟨a, (first s).state, ⟨outcome, rfl⟩, result, state⟩
  · rintro ⟨a, t, ⟨found, rfl⟩, result, state⟩
    unfold Runs
    rw [bind_of_ok found]
    exact ⟨result, state⟩

@[simp]
theorem runs_pure_iff {s t : σ} {a b : α} : Runs (pure a) s b t ↔ a = b ∧ s = t := by
  constructor
  · rintro ⟨result, state⟩
    exact ⟨Except.ok.inj result, state⟩
  · rintro ⟨rfl, rfl⟩
    exact ⟨rfl, rfl⟩

@[simp]
theorem not_runs_fail {s t : σ} {a : α} {error : CheckError} : ¬Runs (fail error) s a t := by
  rintro ⟨result, _⟩
  exact nomatch result

@[simp]
theorem runs_ofFault_iff {s t : σ} {a : α} {value : Except Fault α} :
    Runs (ofFault value) s a t ↔ value = .ok a ∧ s = t := by
  cases value with
  | error fault =>
      constructor
      · rintro ⟨result, _⟩
        exact nomatch result
      · rintro ⟨found, _⟩
        exact nomatch found
  | ok found =>
      constructor
      · rintro ⟨result, state⟩
        exact ⟨congrArg Except.ok (Except.ok.inj result), state⟩
      · rintro ⟨found, state⟩
        exact ⟨congrArg Except.ok (Except.ok.inj found), state⟩

@[simp]
theorem runs_state_iff {s t a : σ} : Runs state s a t ↔ s = a ∧ s = t := by
  simp [Runs]

@[simp]
theorem runs_modify_iff {s t : σ} {f : σ → σ} {a : Unit} : Runs (modify f) s a t ↔ f s = t := by
  simp [Runs]

@[simp]
theorem runs_log_iff {s t : σ} {event : Event} {a : Unit} : Runs (log event) s a t ↔ s = t := by
  simp [Runs]

@[simp]
theorem runs_ofLogged_iff {s t : σ} {a : α} {logged : List Event × Except CheckError α} :
    Runs (ofLogged logged) s a t ↔ logged.2 = .ok a ∧ s = t := by
  simp [Runs]

theorem runs_onPart_iff {part : τ → σ} {put : τ → σ → τ} {action : Action Id σ α} {s t : τ} {a : α} :
    Runs (onPart part put action) s a t ↔
      ∃ changed, Runs action (part s) a changed ∧ put s changed = t := by
  unfold Runs onPart
  constructor
  · rintro ⟨result, state⟩
    exact ⟨_, ⟨result, rfl⟩, state⟩
  · rintro ⟨_, ⟨result, rfl⟩, state⟩
    exact ⟨result, state⟩

/-- An action that succeeds does so in one way. -/
theorem runs_unique {action : Action Id σ α} {s t t' : σ} {a a' : α} (first : Runs action s a t)
    (second : Runs action s a' t') : a = a' ∧ t = t' :=
  ⟨Except.ok.inj (first.1.symm.trans second.1), first.2.symm.trans second.2⟩

/-- An action that succeeds exactly if another one does. -/
theorem runs_ite_iff {condition : Prop} [Decidable condition] {first second : Action Id σ α} {s t : σ}
    {a : α} : Runs (if condition then first else second) s a t ↔
      if condition then Runs first s a t else Runs second s a t := by
  by_cases holds : condition
  · simp [holds]
  · simp [holds]

/-! ## Errors -/

/-- An action ends in the state `s` with an error, and leaves the state `t`. -/
def Fails (action : Action Id σ α) (s : σ) (error : CheckError) (t : σ) : Prop :=
  (action s).result = .error error ∧ (action s).state = t

variable {error : CheckError}

/-- An action succeeds or ends with an error. -/
theorem runs_or_fails (action : Action Id σ α) (s : σ) :
    (∃ a, Runs action s a (action s).state) ∨ ∃ error, Fails action s error (action s).state := by
  cases outcome : (action s).result with
  | ok a => exact .inl ⟨a, outcome, rfl⟩
  | error error => exact .inr ⟨error, outcome, rfl⟩

/-- An action that succeeds does not end with an error. -/
theorem Runs.not_fails {action : Action Id σ α} {s t t' : σ} {a : α} (runs : Runs action s a t) :
    ¬Fails action s error t' := by
  rintro ⟨failed, _⟩
  exact nomatch runs.1.symm.trans failed

theorem fails_bind_iff {first : Action Id σ α} {second : α → Action Id σ β} {s u : σ} :
    Fails (first >>= second) s error u ↔
      Fails first s error u ∨ ∃ a t, Runs first s a t ∧ Fails (second a) t error u := by
  constructor
  · rintro ⟨result, state⟩
    cases outcome : (first s).result with
    | error earlier =>
        rw [bind_of_error outcome] at result state
        obtain rfl := Except.error.inj result
        exact .inl ⟨outcome, state⟩
    | ok a =>
        rw [bind_of_ok outcome] at result state
        exact .inr ⟨a, (first s).state, ⟨outcome, rfl⟩, result, state⟩
  · rintro (⟨failed, rfl⟩ | ⟨a, t, ⟨found, rfl⟩, result, state⟩)
    · rw [Fails, bind_of_error failed]
      exact ⟨rfl, rfl⟩
    · rw [Fails, bind_of_ok found]
      exact ⟨result, state⟩

@[simp]
theorem not_fails_pure {s t : σ} {a : α} : ¬Fails (pure a) s error t := by
  rintro ⟨result, _⟩
  exact nomatch result

@[simp]
theorem fails_fail_iff {s t : σ} {earlier : CheckError} :
    Fails (fail earlier : Action Id σ α) s error t ↔ earlier = error ∧ s = t := by
  simp [Fails]

@[simp]
theorem fails_ofFault_iff {s t : σ} {value : Except Fault α} :
    Fails (ofFault value) s error t ↔
      ∃ fault, value = .error fault ∧ .fault fault = error ∧ s = t := by
  cases value with
  | error fault =>
      have failed : (Except.error fault : Except Fault α).mapError CheckError.fault =
        .error (.fault fault) := rfl
      simp [Fails, failed]
  | ok a =>
      have given : (Except.ok a : Except Fault α).mapError CheckError.fault = .ok a := rfl
      simp [Fails, given]

@[simp]
theorem not_fails_state {s t : σ} : ¬Fails state s error t := by
  simp [Fails]

@[simp]
theorem not_fails_modify {s t : σ} {f : σ → σ} : ¬Fails (modify f) s error t := by
  simp [Fails]

@[simp]
theorem not_fails_log {s t : σ} {event : Event} : ¬Fails (log event) s error t := by
  simp [Fails]

theorem fails_onPart_iff {part : τ → σ} {put : τ → σ → τ} {action : Action Id σ α} {s t : τ} :
    Fails (onPart part put action) s error t ↔
      ∃ changed, Fails action (part s) error changed ∧ put s changed = t := by
  unfold Fails onPart
  constructor
  · rintro ⟨result, state⟩
    exact ⟨_, ⟨result, rfl⟩, state⟩
  · rintro ⟨_, ⟨result, rfl⟩, state⟩
    exact ⟨result, state⟩

theorem fails_ite_iff {condition : Prop} [Decidable condition] {first second : Action Id σ α} {s t : σ} :
    Fails (if condition then first else second) s error t ↔
      if condition then Fails first s error t else Fails second s error t := by
  by_cases holds : condition
  · simp [holds]
  · simp [holds]

/-! ## What actions keep -/

/-- What an action leaves in the state `s` has a property, whatever it ends with, and an error is of a
kind. -/
def KeepsAt (P : σ → Prop) (E : CheckError → Prop) (action : Action Id σ α) (s : σ) : Prop :=
  P (action s).state ∧ ∀ error, (action s).result = .error error → E error

/-- A property of the state stays, whatever an action ends with, and its errors are of a kind. -/
def Keeps (P : σ → Prop) (E : CheckError → Prop) (action : Action Id σ α) : Prop :=
  ∀ s, P s → KeepsAt P E action s

section Keeps

variable {P : σ → Prop} {E : CheckError → Prop}

theorem KeepsAt.of_runs {action : Action Id σ α} {s t : σ} {a : α} (keeps : KeepsAt P E action s)
    (runs : Runs action s a t) : P t :=
  runs.2 ▸ keeps.1

theorem KeepsAt.of_fails {action : Action Id σ α} {s t : σ} (keeps : KeepsAt P E action s)
    (fails : Fails action s error t) : P t ∧ E error :=
  ⟨fails.2 ▸ keeps.1, keeps.2 error fails.1⟩

/-- Two actions keep what both keep, the second one only where the first one succeeds. -/
theorem KeepsAt.bind {first : Action Id σ α} {second : α → Action Id σ β} {s : σ}
    (early : KeepsAt P E first s)
    (late : ∀ a t, P t → Runs first s a t → KeepsAt P E (second a) t) :
    KeepsAt P E (first >>= second) s := by
  unfold KeepsAt
  cases outcome : (first s).result with
  | error error =>
      rw [bind_of_error outcome]
      refine ⟨early.1, ?_⟩
      rintro _ ⟨⟩
      exact early.2 error outcome
  | ok a =>
      rw [bind_of_ok outcome]
      exact late a _ early.1 ⟨outcome, rfl⟩

theorem Keeps.bind {first : Action Id σ α} {second : α → Action Id σ β} (early : Keeps P E first)
    (late : ∀ a, Keeps P E (second a)) : Keeps P E (first >>= second) :=
  fun s holds => (early s holds).bind fun a t isKept _ => late a t isKept

theorem keeps_pure {a : α} : Keeps P E (pure a) :=
  fun _ holds => ⟨holds, fun _ => nofun⟩

theorem keeps_fail (isKind : E error) : Keeps P E (fail error : Action Id σ α) := by
  refine fun _ holds => ⟨holds, ?_⟩
  rintro _ ⟨⟩
  exact isKind

theorem keeps_ofFault {value : Except Fault α}
    (faults : ∀ fault, value = .error fault → E (.fault fault)) : Keeps P E (ofFault value) := by
  intro s holds
  refine ⟨holds, fun error failed => ?_⟩
  obtain ⟨fault, isFault, rfl, _⟩ := fails_ofFault_iff.mp ⟨failed, rfl⟩
  exact faults fault isFault

theorem keeps_log {event : Event} : Keeps P E (log event) :=
  fun _ holds => ⟨holds, fun _ => nofun⟩

theorem keeps_state : Keeps P E state :=
  fun _ holds => ⟨holds, fun _ => nofun⟩

theorem keeps_modify {f : σ → σ} (each : ∀ s, P s → P (f s)) : Keeps P E (modify f) :=
  fun s holds => ⟨each s holds, fun _ => nofun⟩

theorem keeps_ite {condition : Prop} [Decidable condition] {first second : Action Id σ α}
    (keeps : condition → Keeps P E first) (keepsToo : ¬condition → Keeps P E second) :
    Keeps P E (if condition then first else second) := by
  by_cases holds : condition
  · rw [if_pos holds]
    exact keeps holds
  · rw [if_neg holds]
    exact keepsToo holds

end Keeps

/-- What is done behind an action that succeeded starts where it ended. -/
theorem Runs.bind_state {first : Action Id σ α} {second : α → Action Id σ β} {s t : σ} {a : α}
    (runs : Runs first s a t) : ((first >>= second) s).state = (second a t).state := by
  rw [bind_of_ok runs.1, runs.2]

theorem Runs.bind_result {first : Action Id σ α} {second : α → Action Id σ β} {s t : σ} {a : α}
    (runs : Runs first s a t) : ((first >>= second) s).result = (second a t).result := by
  rw [bind_of_ok runs.1, runs.2]

end Trivalent.Action
