import Trivalent.Proofs.Semantics.Information
import Trivalent.Proofs.Task.Violations
import Trivalent.Proofs.Witness.Path

/-!
# Readings of unknown predicates

The wildcard matters for the transitions alone: the states and the registers of a valuation do not
depend on it, nor do the paths of witnesses.  So a valuation satisfies the same formulas of a task
under another reading as long as its transitions are still taken.  Pessimistic transitions are taken
optimistically, hence a valuation that reads unknown predicates pessimistically satisfies no formula
that it does not satisfy when it reads them optimistically.
-/

namespace Trivalent

namespace Valuation

/-- The valuation that reads unknown predicates optimistically. -/
def optimistic (v : Valuation) : Valuation :=
  v.fix .wildcard true

/-- The registers of a recording do not depend on how unknown predicates are read. -/
theorem recordsAt_fix (v : Valuation) (wildcard : Bool) (step : Nat) :
    (v.fix .wildcard wildcard).recordsAt step = v.recordsAt step :=
  rfl

end Valuation

namespace Task

variable {task : Task} {v : Valuation} {step p : Nat}

/-! ## Registers -/

section Registers

variable (wildcard : Bool)

theorem Unrecorded.fix (unrecorded : task.Unrecorded v) :
    task.Unrecorded (v.fix .wildcard wildcard) :=
  ⟨unrecorded.shadow, unrecorded.recorded, unrecorded.progress⟩

theorem Still.fix (still : task.Still v) : task.Still (v.fix .wildcard wildcard) :=
  still

theorem Follows.fix (follows : task.Follows p step v) :
    task.Follows p step (v.fix .wildcard wildcard) :=
  follows

theorem Records.fix (records : task.Records step v) :
    task.Records step (v.fix .wildcard wildcard) where
  recorded := records.recorded
  shadow a member := by
    have shadow := records.shadow a member
    rw [Valuation.recordsAt_fix]
    -- The wildcard is its own shadow, so there is nothing to ask of it.
    cases a with
    | wildcard => exact (ite_self _).symm
    | _ => exact shadow
  progress := records.progress

theorem Loops.fix (loops : task.Loops step v) : task.Loops step (v.fix .wildcard wildcard) where
  recorded := loops.recorded
  closes a member := by
    have closes := loops.closes a member
    cases a with
    | wildcard => rfl
    | _ => exact closes
  progress := loops.progress
  fair := loops.fair

theorem Reaches.fix (reaches : task.Reaches step v) :
    task.Reaches step (v.fix .wildcard wildcard) := by
  unfold Reaches at reaches ⊢
  cases property : task.configuration.property with
  | reachability =>
      simp only [property] at reaches
      exact reaches
  | liveness =>
      simp only [property] at reaches
      exact reaches.fix wildcard

end Registers

/-! ## Formulas -/

section Formulas

variable (built : task.WellBuilt) {wildcard : Bool}

include built

theorem holds_initial_fix (holds : Holds v task.initial) :
    Holds (v.fix .wildcard wildcard) task.initial := by
  rw [(denotes_initial built).holds_iff] at holds ⊢
  rcases holds with ⟨initial, unrecorded, still⟩
  exact ⟨initial, fun liveness => (unrecorded liveness).fix wildcard,
    fun fair => (still fair).fix wildcard⟩

theorem holds_property_fix (holds : Holds v (task.property step)) :
    Holds (v.fix .wildcard wildcard) (task.property step) := by
  rw [(denotes_property built step).holds_iff] at holds ⊢
  exact holds.fix wildcard

/-- A step stays a step under another reading if its moves do. -/
theorem holds_step_fix (room : step + 1 < Word.limit)
    (moves : ∀ p, task.system.Moves (v .wildcard) p (v.stateAt task.system step)
        (v.stateAt task.system (step + 1)) →
      task.system.Moves wildcard p (v.stateAt task.system step)
        (v.stateAt task.system (step + 1)))
    (holds : Holds v (task.step step)) :
    Holds (v.fix .wildcard wildcard) (task.step step) := by
  rw [(denotes_step built room).holds_iff] at holds ⊢
  rcases holds with ⟨⟨p, move, follows⟩, records⟩
  constructor
  · exact ⟨p, moves p move, fun fair => (follows fair).fix wildcard⟩
  · exact fun liveness => (records liveness).fix wildcard

/-- So a run stays one. -/
theorem Unrolls.fix {n : Nat} (room : n < Word.limit) (unrolls : task.Unrolls n v)
    (moves : ∀ t < n, ∀ p, task.system.Moves (v .wildcard) p (v.stateAt task.system t)
        (v.stateAt task.system (t + 1)) →
      task.system.Moves wildcard p (v.stateAt task.system t) (v.stateAt task.system (t + 1))) :
    task.Unrolls n (v.fix .wildcard wildcard) where
  initial := holds_initial_fix built unrolls.initial
  steps t before := holds_step_fix built (Nat.lt_of_le_of_lt before room) (moves t before)
    (unrolls.steps t before)

/-- What moves pessimistically moves optimistically. -/
theorem Unrolls.optimistic (pessimistic : v .wildcard = false) (declared : task.system.Declared)
    {n : Nat} (room : n < Word.limit) (unrolls : task.Unrolls n v) :
    task.Unrolls n v.optimistic := by
  refine unrolls.fix built room fun t _ p moves => ?_
  rw [pessimistic] at moves
  exact moves.optimistic declared

end Formulas

end Task

/-! ## Paths -/

/-- The path of a witness does not depend on how unknown predicates are read, whatever the witness
shows. -/
theorem Witness.eval_formula_fix {system : System} (fits : system.Fits)
    {witness : List WitnessStep} {f : Formula} (isPath : formula system witness = .ok f)
    (v : Valuation) (wildcard : Bool) : f.eval (v.fix .wildcard wildcard) = f.eval v := by
  have each : ∀ g ∈ witness.flatMap (WitnessStep.pins system), ∃ h, g = .ok h := by
    rw [List.forall_mem_flatMap]
    exact fun s _ => WitnessStep.exists_of_mem_pins fits
  obtain ⟨fs, found, meaning⟩ := Task.denotesAll_untilFalse each
  rw [formula, found] at isPath
  obtain rfl := Except.ok.inj isPath
  have pins : ∀ g ∈ witness.flatMap (WitnessStep.pins system),
      (Holds (v.fix .wildcard wildcard) g ↔ Holds v g) := by
    rw [List.forall_mem_flatMap]
    intro s _ g member
    rcases WitnessStep.mem_pins_iff.mp member with
      ⟨l, p, _, inside, rfl⟩ | ⟨_, status, id, _, _, _, rfl⟩
    · have located := Encoding.denotes_location fits inside l s.step false
      exact (located.holds_iff _).trans (located.holds_iff v).symm
    · have known := Encoding.statusFormula_expresses system id status s.step false
      rw [holds_ok, holds_ok]
      exact (known _).trans (known v).symm
  rw [Bool.eq_iff_iff, Formula.expresses_conj meaning, Formula.expresses_conj meaning]
  exact forall₂_congr pins

/-- A condition on the path of a run: it follows the path of a witness, or it does not. -/
def Task.IsPathCondition (task : Task) (f : Formula) : Prop :=
  ∃ witness path, Witness.formula task.system witness = .ok path ∧ (f = path ∨ f = path.neg)

theorem Task.IsPathCondition.eval_fix {task : Task} {f : Formula}
    (isCondition : task.IsPathCondition f) (fits : task.system.Fits) (v : Valuation)
    (wildcard : Bool) : f.eval (v.fix .wildcard wildcard) = f.eval v := by
  rcases isCondition with ⟨witness, path, isPath, rfl | rfl⟩
  · exact Witness.eval_formula_fix fits isPath v wildcard
  · rw [Formula.eval_neg, Formula.eval_neg, Witness.eval_formula_fix fits isPath]

/-! ## Violations under conditions -/

namespace Task

variable {task : Task} {conditions : List Formula} {n : Nat} {wildcard : Bool}

/-- A valuation satisfies the formulas of a violation of `n` steps and some conditions. -/
structure Satisfies (task : Task) (conditions : List Formula) (n : Nat) (v : Valuation) : Prop where
  unrolls : task.Unrolls n v
  property : Holds v (task.property n)
  conditions : ∀ f ∈ conditions, f.eval v = true

/-- The formulas of a violation and some conditions are satisfiable. -/
def Satisfiable (task : Task) (conditions : List Formula) (n : Nat) (wildcard : Bool) : Prop :=
  ∃ v, task.Satisfies conditions n v ∧ v .wildcard = wildcard

theorem Satisfies.optimistic (built : task.WellBuilt) (declared : task.system.Declared)
    (room : n < Word.limit) (paths : ∀ f ∈ conditions, task.IsPathCondition f) {v : Valuation}
    (pessimistic : v .wildcard = false) (satisfies : task.Satisfies conditions n v) :
    task.Satisfies conditions n v.optimistic where
  unrolls := satisfies.unrolls.optimistic built pessimistic declared room
  property := holds_property_fix built satisfies.property
  conditions f member := by
    rw [Valuation.optimistic, (paths f member).eval_fix built.fits]
    exact satisfies.conditions f member

theorem Satisfiable.optimistic (built : task.WellBuilt) (declared : task.system.Declared)
    (room : n < Word.limit) (paths : ∀ f ∈ conditions, task.IsPathCondition f)
    (satisfiable : task.Satisfiable conditions n false) : task.Satisfiable conditions n true := by
  rcases satisfiable with ⟨v, satisfies, pessimistic⟩
  exact ⟨v.optimistic, satisfies.optimistic built declared room paths pessimistic, rfl⟩

theorem Satisfiable.of_append {more : List Formula}
    (satisfiable : task.Satisfiable (conditions ++ more) n wildcard) :
    task.Satisfiable conditions n wildcard := by
  rcases satisfiable with ⟨v, ⟨unrolls, property, all⟩, reads⟩
  exact ⟨v, ⟨unrolls, property, (List.forall_mem_append.mp all).1⟩, reads⟩

end Task

end Trivalent
