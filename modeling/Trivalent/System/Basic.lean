import Trivalent.NameTable
import Trivalent.Status
import Trivalent.Term
import Trivalent.Word

/-!
# Systems

A system is a list of processes over shared three-valued predicates.  A process is a graph of
locations: the transitions of its control flow, each with a guard and updates of predicates.  The
locations of a process are those up to the largest one that a transition names.
-/

namespace Trivalent

/-- An update of a predicate. -/
structure Assignment where
  /-- The predicate that changes. -/
  predicate : Nat
  /-- The term that it takes its status from. -/
  value : Term
  deriving Repr, BEq

/-- An edge of the control flow of a process. -/
structure Transition where
  /-- The location the edge leaves. -/
  source : Nat
  /-- The location the edge enters. -/
  destination : Nat
  /-- The condition under which the edge may be taken. -/
  guard : Term
  /-- The updates the edge makes. -/
  assignments : List Assignment
  deriving Repr, BEq

/-- A process. -/
structure Process where
  /-- The place of the process in its system. -/
  id : Nat
  /-- The control flow. -/
  transitions : List Transition
  deriving Repr, BEq

namespace Process

/-- The largest location that a transition names. -/
def lastLocation? (process : Process) : Option Nat :=
  (process.transitions.map fun t => max t.source t.destination).max?

/-- The number of locations, one at least. -/
def extent (process : Process) : Nat :=
  match process.lastLocation? with
  | none => 1
  | some last => last + 1

/-- The number of locations as a word. -/
def locationCount (process : Process) : Except Fault Nat :=
  match process.lastLocation? with
  | none => .ok 1
  | some last => Word.add last 1

/-- The number of bits that name a location. -/
def width (process : Process) : Nat :=
  Word.bitsFor process.extent

/-- The number of bits that name a location, if the locations can be counted. -/
def widthWord (process : Process) : Except Fault Nat :=
  process.locationCount.map Word.bitsFor

theorem one_le_extent (process : Process) : 1 ≤ process.extent := by
  unfold extent
  split <;> omega

theorem locationCount_eq_ok_iff {process : Process} {count : Nat} :
    process.locationCount = .ok count ↔ process.extent = count ∧ process.extent < Word.limit := by
  unfold locationCount extent
  split
  · simp [Word.limit, Word.width]
  · exact Word.add_eq_ok_iff

theorem extent_le_two_pow_width (process : Process) : process.extent ≤ Nat.pow 2 process.width :=
  Word.le_two_pow_bitsFor _

end Process

/-- A system of processes over shared predicates. -/
structure System where
  /-- The numbers of the predicates, by name. -/
  predicates : NameTable Nat
  /-- The initial values given for predicates, by name. -/
  initial : NameTable Bool
  /-- The processes. -/
  processes : List Process

namespace System

instance : Inhabited System :=
  ⟨⟨.empty, .empty, []⟩⟩

/-- The predicates as pairs of number and name, ordered by number and then by name. -/
def predicatesById (system : System) : List (Nat × String) :=
  (system.predicates.entries.map fun entry => (entry.2, entry.1)).mergeSort fun a b =>
    a.1 < b.1 || (a.1 == b.1 && a.2 ≤ b.2)

/-- The numbers of the predicates, in increasing order. -/
def predicateIds (system : System) : List Nat :=
  system.predicatesById.map (·.1)

/-- The number of the predicate of a name. -/
def predicateId? (system : System) (name : String) : Option Nat :=
  system.predicates.get? name

/-- The first name, in order, of the predicate of a number. -/
def predicateName? (system : System) (id : Nat) : Option String :=
  (system.predicates.entries.find? fun entry => entry.2 == id).map (·.1)

/-- The initial value of a predicate: true unless it is given. -/
def initialValue (system : System) (name : String) : Bool :=
  (system.initial.get? name).getD true

/-- The initial status of a predicate. -/
def initialStatus (system : System) (name : String) : Status :=
  .ofBool (system.initialValue name)

/-- The process at a place. -/
def process (system : System) (index : Nat) : Except Fault Process :=
  entryAt system.processes index

/-- The number of bits that name a location of the process at a place. -/
def width (system : System) (index : Nat) : Except Fault Nat :=
  system.process index >>= Process.widthWord

end System

end Trivalent
