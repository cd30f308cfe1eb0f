import Trivalent.Proofs.Task.Steps

/-!
# Histories

A history gives every step a state, a recorded state and the registers of a recording.  It is
written as a valuation, from which its states are read back if they are made of locations that the
system has names for.
-/

namespace Trivalent

/-- The bit of a state that an atom stands for. -/
def State.bit (system : System) (s : State) : Atom → Bool
  | .location p bit _ _ => Encoding.locationBit (system.widthOf p) (s.location p) bit
  | .predicate id .unknown _ _ => s.status id = .unknown
  | .predicate id .truth _ _ => s.status id = .yes
  | _ => false

/-- What happens at every step. -/
structure History where
  /-- The state of a step. -/
  state : Nat → State
  /-- The recorded state of a step. -/
  shadow : Nat → State
  /-- Whether the state of a step is recorded. -/
  record : Nat → Bool
  /-- Whether a state has been recorded before a step. -/
  recorded : Nat → Bool
  /-- Whether the target was met since the recording. -/
  progress : Nat → Bool
  /-- Whether a process has moved since the recording, by process and step. -/
  fair : Nat → Nat → Bool
  /-- How unknown predicates are read. -/
  wildcard : Bool

namespace History

/-- The states of a step or the recorded ones. -/
def side (h : History) (shadow : Bool) : Nat → State :=
  if shadow then h.shadow else h.state

/-- A history as a valuation. -/
def valuation (h : History) (system : System) : Valuation
  | .location p bit step shadow =>
      (h.side shadow step).bit system (.location p bit step shadow)
  | .predicate id bit step shadow =>
      (h.side shadow step).bit system (.predicate id bit step shadow)
  | .record step => h.record step
  | .recorded step => h.recorded step
  | .progress step => h.progress step
  | .fair p step => h.fair p step
  | .wildcard => h.wildcard

variable {h : History} {system : System}

/-- The states of a history are read back from its valuation. -/
theorem readAt_valuation {shadow : Bool} {step : Nat}
    (fits : ∀ p < system.processes.length,
      (h.side shadow step).location p < Nat.pow 2 (system.widthOf p)) :
    ((h.valuation system).readAt system shadow step).Agrees system.processes.length
      (h.side shadow step) := by
  constructor
  · intro p inside
    exact Encoding.number_locationBit (fits p inside)
  · funext id
    show Encoding.statusOfBits (decide ((h.side shadow step).status id = .unknown))
      (decide ((h.side shadow step).status id = .yes)) = (h.side shadow step).status id
    cases (h.side shadow step).status id <;> rfl

/-- The tracked atoms and their shadows have the bits of the states. -/
theorem valuation_tracked {task : Task} (built : task.WellBuilt) (step : Nat) :
    ∀ a ∈ task.tracked,
      h.valuation task.system (a.shift step) = (h.state step).bit task.system a ∧
        h.valuation task.system (a.shift step).shadowed =
          (h.shadow step).bit task.system a := by
  rw [Encoding.forall_tracked built.numbered built.fits built.tracked]
  have moved : Encoding.current + step = step := Nat.zero_add step
  constructor
  · intro id _ bit
    rw [Atom.shift, moved]
    cases bit <;> exact ⟨rfl, rfl⟩
  · intro p _ bit _
    rw [Atom.shift, moved]
    exact ⟨rfl, rfl⟩

end History

/-- Two states that are the same have the same bits. -/
theorem System.SameState.bit_eq {task : Task} (built : task.WellBuilt) {s t : State}
    (same : task.system.SameState s t) :
    ∀ a ∈ task.tracked, s.bit task.system a = t.bit task.system a := by
  rw [Encoding.forall_tracked built.numbered built.fits built.tracked]
  constructor
  · intro id member bit
    have status := same.status id member
    cases bit
    · exact congrArg (fun found => decide (found = Status.unknown)) status
    · exact congrArg (fun found => decide (found = Status.yes)) status
  · intro p inside bit _
    exact congrArg (fun place => Encoding.locationBit _ place bit) (same.location p inside)

/-- A valuation that gives two steps the same bits gives them the same state. -/
theorem Valuation.sameState_of_bits {task : Task} (built : task.WellBuilt) {v : Valuation}
    {r step : Nat} (equal : ∀ a ∈ task.tracked, v (a.shift r) = v (a.shift step)) :
    task.system.SameState (v.stateAt task.system r) (v.stateAt task.system step) := by
  rw [Encoding.forall_tracked built.numbered built.fits built.tracked] at equal
  rcases equal with ⟨predicates, locations⟩
  have early : Encoding.current + r = r := Nat.zero_add r
  have late : Encoding.current + step = step := Nat.zero_add step
  simp only [Atom.shift, early, late] at predicates locations
  constructor
  · intro p inside
    exact Encoding.number_eq_iff.mpr (locations p inside)
  · intro id member
    exact congrArg₂ Encoding.statusOfBits (predicates id member .unknown)
      (predicates id member .truth)

end Trivalent
