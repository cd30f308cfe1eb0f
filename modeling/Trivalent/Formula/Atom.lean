import Trivalent.Word

/-!
# Atoms

The propositional atoms of which formulas about runs are made.  Every atom but the wildcard belongs
to a timestep.  Location and predicate atoms come twice: for the state itself and for its shadow,
the copy of a state recorded earlier.  Atoms are ordered by kind and then by their fields.
-/

namespace Trivalent

/-- Which of the two bits of a three-valued predicate. -/
inductive PredicateBit where
  /-- Set when the predicate is unknown. -/
  | unknown
  /-- The value of a known predicate. -/
  | truth
  deriving DecidableEq, Ord, Hashable, Repr

/-- A propositional atom. -/
inductive Atom where
  /-- One bit of the location of a process; bit 0 is the most significant. -/
  | location (process bit step : Nat) (shadow : Bool)
  /-- One bit of the status of a predicate. -/
  | predicate (id : Nat) (bit : PredicateBit) (step : Nat) (shadow : Bool)
  /-- The state at this step is being recorded. -/
  | record (step : Nat)
  /-- A state has been recorded before this step. -/
  | recorded (step : Nat)
  /-- The target was met since the recording. -/
  | progress (step : Nat)
  /-- The process has moved since the recording. -/
  | fair (process step : Nat)
  /-- Unknown predicates are read as either value. -/
  | wildcard
  deriving DecidableEq, Ord, Hashable, Repr

namespace Atom

instance : Inhabited Atom :=
  ⟨.wildcard⟩

/-- The timestep of an atom, if it has one. -/
def step? : Atom → Option Nat
  | .location _ _ step _ => some step
  | .predicate _ _ step _ => some step
  | .record step => some step
  | .recorded step => some step
  | .progress step => some step
  | .fair _ step => some step
  | .wildcard => none

/-- The atom moved some steps into the future. -/
def shift (steps : Nat) : Atom → Atom
  | .location process bit step shadow => .location process bit (step + steps) shadow
  | .predicate id bit step shadow => .predicate id bit (step + steps) shadow
  | .record step => .record (step + steps)
  | .recorded step => .recorded (step + steps)
  | .progress step => .progress (step + steps)
  | .fair process step => .fair process (step + steps)
  | .wildcard => .wildcard

/-- The shadow of a location or predicate atom; other atoms are their own. -/
def shadowed : Atom → Atom
  | .location process bit step _ => .location process bit step true
  | .predicate id bit step _ => .predicate id bit step true
  | atom => atom

theorem step?_shift (steps : Nat) (atom : Atom) :
    (atom.shift steps).step? = atom.step?.map (· + steps) := by
  cases atom <;> rfl

@[simp]
theorem shift_zero (atom : Atom) : atom.shift 0 = atom := by
  cases atom <;> rfl

theorem shift_shift (m n : Nat) (atom : Atom) :
    (atom.shift m).shift n = atom.shift (m + n) := by
  cases atom <;> simp [shift, Nat.add_assoc]

theorem shift_shadowed (steps : Nat) (atom : Atom) :
    atom.shadowed.shift steps = (atom.shift steps).shadowed := by
  cases atom <;> rfl

@[simp]
theorem step?_shadowed (atom : Atom) : atom.shadowed.step? = atom.step? := by
  cases atom <;> rfl

/-- Whether the step of an atom is still a word after `steps` more. -/
def Shiftable (steps : Nat) (atom : Atom) : Prop :=
  ∀ step ∈ atom.step?, step + steps < Word.limit

instance (steps : Nat) (atom : Atom) : Decidable (atom.Shiftable steps) :=
  match h : atom.step? with
  | none => isTrue (by simp [Shiftable, h])
  | some step =>
      if fits : step + steps < Word.limit then isTrue (by simp [Shiftable, h, fits])
      else isFalse (by simpa [Shiftable, h] using fits)

/-- The atom moved some steps into the future, if its step stays a word. -/
def shiftWord (steps : Nat) (atom : Atom) : Except Fault Atom :=
  if atom.Shiftable steps then .ok (atom.shift steps) else .error .addOverflow

/-! ## Names -/

/-- How the shadow of an atom is marked. -/
def shadowMark (shadow : Bool) : String :=
  if shadow then "_c" else ""

/-- The name of an atom. -/
def text : Atom → String
  | .location process bit step shadow => s!"n_{step}_{process}_{bit}" ++ shadowMark shadow
  | .predicate id bit step shadow =>
      s!"{id}_{step}_" ++ (match bit with | .unknown => "u" | .truth => "t") ++ shadowMark shadow
  | .record step => s!"re_{step}"
  | .recorded step => s!"rd_{step}"
  | .progress step => s!"lv_{step}"
  | .fair process step => s!"fr_{step}_{process}"
  | .wildcard => "unknown"

end Atom

end Trivalent
