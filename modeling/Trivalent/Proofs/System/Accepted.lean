import Trivalent.System.Basic

/-!
# Systems that can be encoded

The processes of a system are numbered by their places.  If no process has more than half as many
locations as there are words, then every location has a name of fewer bits than a word has.
-/

namespace Trivalent

namespace System

/-- Every process has its place as its number. -/
def Numbered (system : System) : Prop :=
  ∀ (p : Nat) (process : Process), system.processes[p]? = some process → process.id = p

/-- The locations of every process have names that are shorter than a word. -/
def Fits (system : System) : Prop :=
  ∀ process ∈ system.processes, process.extent ≤ Nat.pow 2 63

theorem Numbered.exists_of_mem {system : System} (numbered : system.Numbered) {process : Process}
    (member : process ∈ system.processes) :
    process.id < system.processes.length ∧ system.processes[process.id]? = some process := by
  rcases List.mem_iff_getElem?.mp member with ⟨p, found⟩
  rw [numbered p process found]
  exact ⟨(List.getElem?_eq_some_iff.mp found).1, found⟩

/-- What is true of the numbers of all processes is true of all places. -/
theorem Numbered.forall_iff {system : System} (numbered : system.Numbered) {P : Nat → Prop} :
    (∀ process ∈ system.processes, P process.id) ↔ ∀ p < system.processes.length, P p := by
  constructor
  · intro all p inside
    rw [← numbered p _ (List.getElem?_eq_getElem inside)]
    exact all _ (List.getElem_mem inside)
  · intro all process member
    exact all process.id (numbered.exists_of_mem member).1

end System

namespace Word

/-- The number of bits is the least that is enough. -/
theorem bitsFor_le_iff {count bits : Nat} (positive : 1 ≤ bits) :
    bitsFor count ≤ bits ↔ count ≤ Nat.pow 2 bits := by
  have one : 1 ≤ 2 ^ bits := Nat.one_le_two_pow
  rw [Nat.pow_eq]
  unfold bitsFor
  split
  · omega
  · rename_i several
    rw [Nat.succ_le_iff, Nat.log2_lt (by omega)]
    omega

theorem bitsFor_mono {count count' : Nat} (le : count ≤ count') :
    bitsFor count ≤ bitsFor count' :=
  (bitsFor_le_iff (one_le_bitsFor count')).mpr (Nat.le_trans le (le_two_pow_bitsFor count'))

theorem bitsFor_lt_width {count : Nat} (fits : count ≤ Nat.pow 2 63) : bitsFor count < width :=
  Nat.lt_succ_of_le ((bitsFor_le_iff (by decide)).mpr fits)

end Word

namespace Process

/-- The locations of a process that fits can be counted. -/
theorem locationCount_of_fits {process : Process} (fits : process.extent ≤ Nat.pow 2 63) :
    process.locationCount = .ok process.extent := by
  refine locationCount_eq_ok_iff.mpr ⟨rfl, Nat.lt_of_le_of_lt fits ?_⟩
  decide

theorem widthWord_of_fits {process : Process} (fits : process.extent ≤ Nat.pow 2 63) :
    process.widthWord = .ok process.width := by
  rw [widthWord, locationCount_of_fits fits]
  rfl

end Process

end Trivalent
