import Trivalent.Proofs.ModelFile.Reading

/-!
# Failures of models

A model that is read from its JSON can still fail to be loaded, but only for what it says.  So a
text is malformed exactly if no model is read from it.
-/

namespace Trivalent.ModelFile

/-- A failure that is about what a model says, not about its file or its JSON. -/
def LoadError.AboutModel : LoadError → Prop
  | .unreadable _ _ => False
  | .malformed _ => False
  | .badExpression _ _ _ => True
  | .duplicatePredicate _ => True
  | .unknownPredicate _ _ => True
  | .unknownInitial _ => True

section Failures

variable {ε α β : Type} {P : ε → Prop}

/-- Whenever a computation fails, its failure has a property. -/
def FailsWith (P : ε → Prop) (computed : Except ε α) : Prop :=
  ∀ e, computed = .error e → P e

theorem failsWith_ok (a : α) : FailsWith P (.ok a : Except ε α) :=
  nofun

theorem failsWith_error {e : ε} (holds : P e) : FailsWith P (.error e : Except ε α) := by
  rintro _ ⟨⟩
  exact holds

theorem failsWith_bind {first : Except ε α} {next : α → Except ε β} (fails : FailsWith P first)
    (failsNext : ∀ a, FailsWith P (next a)) : FailsWith P (first >>= next) := by
  cases first with
  | error e => exact failsWith_error (fails e rfl)
  | ok a => exact failsNext a

theorem failsWith_mapM {f : α → Except ε β} (each : ∀ a, FailsWith P (f a)) (as : List α) :
    FailsWith P (as.mapM f) := by
  induction as with
  | nil => exact failsWith_ok []
  | cons a as ih =>
      rw [List.mapM_cons]
      exact failsWith_bind (each a) fun _ => failsWith_bind ih fun _ => failsWith_ok _

end Failures

section Loading

variable (names : NameTable Nat) (process : Nat)

theorem failsWith_termOfText (text : List Char) :
    FailsWith LoadError.AboutModel (termOfText names process text) := by
  unfold termOfText
  split
  · exact failsWith_error trivial
  · split
    · exact failsWith_error trivial
    · exact failsWith_ok _

theorem failsWith_assignmentOfText (text : AssignmentText) :
    FailsWith LoadError.AboutModel (assignmentOfText names process text) := by
  unfold assignmentOfText
  split
  · exact failsWith_error trivial
  · exact failsWith_bind (failsWith_termOfText names process _) fun _ => failsWith_ok _

theorem failsWith_transitionOfText (text : TransitionText) :
    FailsWith LoadError.AboutModel (transitionOfText names process text) := by
  rw [transitionOfText_eq]
  have guard : FailsWith LoadError.AboutModel
      (text.guard.elim (.ok .always) (termOfText names process)) := by
    cases text.guard with
    | none => exact failsWith_ok _
    | some guard => exact failsWith_termOfText names process guard
  exact failsWith_bind guard fun _ =>
    failsWith_bind (failsWith_mapM (failsWith_assignmentOfText names process) _) fun _ =>
      failsWith_ok _

theorem failsWith_processOfText (text : List TransitionText) :
    FailsWith LoadError.AboutModel (processOfText names text process) :=
  failsWith_bind (failsWith_mapM (failsWith_transitionOfText names process) text) fun _ =>
    failsWith_ok _

end Loading

/-- A model that is read from its JSON fails only for what it says. -/
theorem failsWith_systemOfText (text : ModelText) :
    FailsWith LoadError.AboutModel (systemOfText text) := by
  have processes := failsWith_mapM (P := LoadError.AboutModel)
    (fun entry : List TransitionText × Nat => failsWith_processOfText text.names entry.2 entry.1)
    text.processes.zipIdx
  unfold systemOfText
  dsimp only
  split
  · exact failsWith_error trivial
  · split
    · exact failsWith_error trivial
    · exact failsWith_bind processes fun _ => failsWith_ok _

/-- A text is malformed exactly if no model is read from it. -/
theorem load_eq_malformed_iff {text : String} :
    (∃ message, load text = .error (.malformed message)) ↔
      (layout text.toList).toOption = none := by
  cases read : layout text.toList with
  | error problem =>
      rw [load, read]
      exact ⟨fun _ => rfl, fun _ => ⟨_, rfl⟩⟩
  | ok model =>
      rw [load_of_layout read]
      constructor
      · rintro ⟨message, failed⟩
        exact (failsWith_systemOfText model _ failed).elim
      · intro none
        contradiction

end Trivalent.ModelFile
