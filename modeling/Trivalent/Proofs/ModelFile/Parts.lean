import Trivalent.Proofs.Expr.Terms
import Trivalent.Proofs.ModelFile.Reading

/-!
# Parts of model files

What a model file says of its transitions is made of parts: predicates that are assigned and texts
of terms, in the order in which they are written.  Loading checks one part after the other, and
fails with the first of them that fails.
-/

namespace Trivalent.ModelFile

/-- A part of a transition. -/
inductive Part where
  /-- A predicate that is assigned. -/
  | target (id : Nat)
  /-- The text of a guard or of what is assigned. -/
  | term (text : List Char)

/-- The parts of an update. -/
def AssignmentText.parts (text : AssignmentText) : List Part :=
  [.target text.predicate, .term text.value]

/-- The parts of a transition. -/
def TransitionText.parts (text : TransitionText) : List Part :=
  (text.guard.map Part.term).toList ++ text.assignments.flatMap AssignmentText.parts

/-- The parts of a model, with the processes that they belong to. -/
def ModelText.parts (text : ModelText) : List (Nat × Part) :=
  text.processes.zipIdx.flatMap fun entry =>
    (entry.1.flatMap TransitionText.parts).map fun part => (entry.2, part)

/-- Checks a part of a process. -/
def checkPart (names : NameTable Nat) (process : Nat) : Part → Except LoadError Unit
  | .target id => if names.values.contains id then .ok () else .error (.unknownPredicate process id)
  | .term text => do
      let _ ← termOfText names process text
      return ()

/-! ## Checks of traversals -/

section Checks

variable {ε α β γ : Type}

/-- A computation without its result. -/
def outcome (computed : Except ε α) : Except ε Unit :=
  computed.map fun _ => ()

theorem outcome_map (computed : Except ε α) (f : α → β) :
    outcome (computed >>= fun a => .ok (f a)) = outcome computed := by
  cases computed <;> rfl

/-- Of two computations, of which the second one uses the result of the first one only for its own
result. -/
theorem outcome_bind {first : Except ε α} {next : α → Except ε β} {rest : Except ε Unit}
    (same : ∀ a, outcome (next a) = rest) :
    outcome (first >>= next) = outcome first >>= fun _ => rest := by
  cases first with
  | error e => rfl
  | ok a => exact same a

theorem outcome_eq_ok_iff {computed : Except ε α} :
    outcome computed = .ok () ↔ ∃ a, computed = .ok a := by
  cases computed <;> simp [outcome, Except.map]

theorem outcome_eq_error_iff {computed : Except ε α} {e : ε} :
    outcome computed = .error e ↔ computed = .error e := by
  cases computed <;> simp [outcome, Except.map]

/-- A traversal checks the parts of its entries one after the other. -/
theorem outcome_mapM {f : α → Except ε β} {parts : α → List γ} {check : γ → Except ε Unit}
    (each : ∀ a, outcome (f a) = (parts a).forM check) (entries : List α) :
    outcome (entries.mapM f) = (entries.flatMap parts).forM check := by
  induction entries with
  | nil => rfl
  | cons a entries ih =>
      calc outcome ((a :: entries).mapM f)
          = outcome (f a) >>= fun _ => outcome (entries.mapM f) := by
            rw [List.mapM_cons]
            exact outcome_bind fun b => outcome_map (entries.mapM f) (b :: ·)
        _ = ((a :: entries).flatMap parts).forM check := by
            rw [each, ih, List.flatMap_cons]
            exact List.forM_append.symm

theorem forM_eq_ok_iff {check : γ → Except ε Unit} {parts : List γ} :
    parts.forM check = .ok () ↔ ∀ part ∈ parts, check part = .ok () := by
  induction parts with
  | nil => simp [List.forM, pure, Except.pure]
  | cons part parts ih =>
      rw [List.forM, bind_eq_ok_iff, List.forall_mem_cons, ← ih]
      exact ⟨fun ⟨_, first, rest⟩ => ⟨first, rest⟩, fun ⟨first, rest⟩ => ⟨(), first, rest⟩⟩

/-- The first part that fails tells the failure. -/
theorem forM_eq_error {check : γ → Except ε Unit} {before after : List γ} {part : γ} {e : ε}
    (passed : ∀ other ∈ before, check other = .ok ()) (failed : check part = .error e) :
    (before ++ part :: after).forM check = .error e := by
  have split : (before ++ part :: after).forM check =
      before.forM check >>= fun _ => check part >>= fun _ => after.forM check :=
    List.forM_append
  rw [split, forM_eq_ok_iff.mpr passed, failed]
  rfl

end Checks

/-! ## Checks of models -/

section Models

variable (names : NameTable Nat) (process : Nat)

theorem outcome_assignmentOfText (text : AssignmentText) :
    outcome (assignmentOfText names process text) = text.parts.forM (checkPart names process) := by
  unfold assignmentOfText AssignmentText.parts
  rw [List.forM, List.forM, checkPart, checkPart]
  cases known : names.values.contains text.predicate with
  | false => rfl
  | true =>
      cases termOfText names process text.value <;> rfl

theorem outcome_transitionOfText (text : TransitionText) :
    outcome (transitionOfText names process text) = text.parts.forM (checkPart names process) := by
  have guardParts : outcome (text.guard.elim (.ok .always) (termOfText names process)) =
      ((text.guard.map Part.term).toList).forM (checkPart names process) := by
    cases text.guard with
    | none => rfl
    | some guard =>
        show outcome (termOfText names process guard) =
          checkPart names process (.term guard) >>= pure
        rw [checkPart]
        cases termOfText names process guard <;> rfl
  calc outcome (transitionOfText names process text)
      = outcome (text.guard.elim (.ok .always) (termOfText names process)) >>= fun _ =>
          outcome (text.assignments.mapM (assignmentOfText names process)) := by
        rw [transitionOfText_eq]
        exact outcome_bind fun guard => outcome_map (text.assignments.mapM _) _
    _ = text.parts.forM (checkPart names process) := by
        rw [guardParts, outcome_mapM (outcome_assignmentOfText names process)]
        exact List.forM_append.symm

theorem outcome_processOfText (text : List TransitionText) :
    outcome (processOfText names text process) =
      ((text.flatMap TransitionText.parts).map fun part => (process, part)).forM
        fun part => checkPart names part.1 part.2 := by
  have checks : outcome (processOfText names text process) =
      (text.flatMap TransitionText.parts).forM (checkPart names process) := by
    rw [← outcome_mapM (outcome_transitionOfText names process)]
    exact outcome_map (text.mapM (transitionOfText names process)) _
  rw [checks]
  exact (List.forM_map (l := text.flatMap TransitionText.parts) (g := fun part => (process, part))
    (f := fun part => checkPart names part.1 part.2)).symm

end Models

/-- Loading a model whose header fits checks its parts. -/
theorem outcome_systemOfText {text : ModelText} (fits : text.HeaderFits) :
    outcome (systemOfText text) =
      text.parts.forM fun part => checkPart text.names part.1 part.2 := by
  rw [systemOfText_eq fits]
  have checks := outcome_mapM
    (fun entry : List TransitionText × Nat => outcome_processOfText text.names entry.2 entry.1)
    text.processes.zipIdx
  exact (outcome_map _ _).trans checks

end Trivalent.ModelFile
