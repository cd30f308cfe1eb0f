import Trivalent.Formula.Basic
import Trivalent.System.Basic

/-!
# States as formulas

The location of a process is written in binary, the most significant bit first, and the status of a
predicate by two bits: whether it is unknown, and its value if it is known.  A valuation of the
atoms of a step is read back as locations and statuses.
-/

namespace Trivalent.Encoding

/-! ## Locations -/

/-- Bit `bit` of a location of `width` bits, of which bit 0 is the most significant. -/
def locationBit (width location bit : Nat) : Bool :=
  location.testBit (width - 1 - bit)

/-- A process is at a location of `width` bits, at a step or in its shadow.  A location that has
more bits is nowhere. -/
def locationFormula (width process location step : Nat) (shadow : Bool) : Formula :=
  if location >>> width ≠ 0 then .constant false
  else
    .conj ((List.range width).map fun bit =>
      let atom := Formula.atom (.location process bit step shadow)
      if locationBit width location bit then atom else atom.neg)

/-- The location of `width` bits that a valuation gives a process. -/
def decodeLocation (width : Nat) (v : Valuation) (process step : Nat) : Nat :=
  (List.range width).foldl (fun location bit =>
    2 * location + (v (.location process bit step false)).toNat) 0

/-- A process of a system is at a location. -/
def location (system : System) (process location step : Nat) (shadow : Bool) :
    Except Fault Formula := do
  let width ← system.width process
  let _ ← Word.shiftRight location width
  return locationFormula width process location step shadow

/-- The location that a valuation gives a process of a system. -/
def locationOf (system : System) (v : Valuation) (process step : Nat) : Except Fault Nat := do
  return decodeLocation (← system.width process) v process step

/-! ## Statuses -/

/-- A predicate has a status, at a step or in its shadow. -/
def statusFormula (predicate : Nat) (status : Status) (step : Nat) (shadow : Bool) : Formula :=
  let unknown := Formula.atom (.predicate predicate .unknown step shadow)
  let truth := Formula.atom (.predicate predicate .truth step shadow)
  match status with
  | .yes => .conj [unknown.neg, truth]
  | .no => .conj [unknown.neg, truth.neg]
  | .unknown => unknown

/-- The status that a valuation gives a predicate. -/
def decodeStatus (v : Valuation) (predicate step : Nat) : Status :=
  if v (.predicate predicate .unknown step false) then .unknown
  else if v (.predicate predicate .truth step false) then .yes
  else .no

end Trivalent.Encoding
