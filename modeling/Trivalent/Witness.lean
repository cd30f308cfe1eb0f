import Trivalent.Json.Document
import Trivalent.Task

/-!
# Witnesses

Paths to a violation, read back from a valuation: the state of every timestep with the registers of
the recording.  The path of a witness is a formula again, in its own system or in another one.
-/

namespace Trivalent

/-- A state of a path. -/
structure WitnessStep where
  /-- The timestep. -/
  step : Nat
  /-- The locations of the processes. -/
  locations : List Nat
  /-- The statuses of the predicates. -/
  predicates : NameTable Status
  /-- Which processes have moved since the recording, if loops have to be fair. -/
  fairness : Option (List Bool)
  /-- The state of this step is being recorded. -/
  record : Bool
  /-- A state has been recorded before this step. -/
  recorded : Bool

namespace NameTable

/-- The table with other values for its names. -/
def mapValues {α β : Type} (f : α → β) (table : NameTable α) : NameTable β :=
  ⟨table.entries.map fun entry => (entry.1, f entry.2),
    List.pairwise_map.mpr table.increasing⟩

end NameTable

namespace WitnessStep

/-- The state that a valuation gives a step. -/
def decode (system : System) (fairness : Bool) (v : Valuation) (step : Nat) :
    Except Fault WitnessStep := do
  let places := List.range system.processes.length
  let locations ← places.mapM fun p => Encoding.locationOf system v p step
  return {
    step
    locations
    predicates := system.predicates.mapValues fun id => Encoding.decodeStatus v id step
    fairness := if fairness then some (places.map fun p => v (.fair p step)) else none
    record := v (.record step)
    recorded := v (.recorded step) }

/-- Entries of a list, each with its process. -/
def byProcess (texts : List String) : String :=
  ", ".intercalate (texts.zipIdx.map fun (text, p) => s!"P{p} = " ++ text)

/-- The text of a state. -/
def text (s : WitnessStep) : String :=
  let fairness :=
    match s.fairness with
    | none => "n.a."
    | some moved => byProcess (moved.map fun fair => if fair then "fair" else "unfair")
  let predicates := s.predicates.entries.map fun (name, status) => name ++ " = " ++ status.text
  s!"--- timestep {s.step} ---\n" ++
    "  locations:  " ++ byProcess (s.locations.map toString) ++ "\n" ++
    "  predicates: " ++ ", ".intercalate predicates ++ "\n" ++
    "  fairness:   " ++ fairness ++ "\n" ++
    s!"  re = {s.record}, rd = {s.recorded}"

/-- A state as a JSON document. -/
def document (s : WitnessStep) : Json.Document :=
  .object [
    ("step", .number s.step),
    ("locations", .array (s.locations.map .number)),
    ("predicates",
      .object (s.predicates.entries.map fun (name, status) => (name, .string status.name))),
    ("fairness",
      match s.fairness with
      | none => .null
      | some moved => .array (moved.map .boolean)),
    ("record", .boolean s.record),
    ("recorded", .boolean s.recorded)]

/-- What a state says about the processes and predicates that a system has: the locations, and the
statuses that are known. -/
def pins (system : System) (s : WitnessStep) : List (Except Fault Formula) :=
  let locations := s.locations.zipIdx.filter fun (_, p) => p < system.processes.length
  locations.map (fun (l, p) => Encoding.location system p l s.step false) ++
    s.predicates.entries.filterMap fun (name, status) =>
      if status = .unknown then none
      else
        (system.predicateId? name).map fun id =>
          .ok (Encoding.statusFormula id status s.step false)

end WitnessStep

namespace Witness

/-- The path that a valuation gives the steps up to `last`. -/
def decode (system : System) (fairness : Bool) (v : Valuation) (last : Nat) :
    Except Fault (List WitnessStep) :=
  (List.range (last + 1)).mapM (WitnessStep.decode system fairness v)

/-- A system follows the path of a witness as far as it has the processes and predicates. -/
def formula (system : System) (witness : List WitnessStep) : Except Fault Formula := do
  return .conj (← Task.untilFalse (witness.flatMap (WitnessStep.pins system)))

end Witness

end Trivalent
