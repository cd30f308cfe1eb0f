import Std.Data.HashMap
import Trivalent.Decimal.Binary
import Trivalent.Verdict

/-!
# Timing

How long a check takes, inside the solver and outside it, and how many queries of each kind are
answered.  Queries are recorded as they are answered, and a report groups them by their kinds.

Durations are counted in nanoseconds.  In seconds they are binary floating-point numbers.
-/

namespace Trivalent

/-- An answered query. -/
structure Query where
  /-- Which query it was. -/
  phase : Phase
  /-- Whether it was satisfiable. -/
  satisfiable : Bool
  /-- How long it took. -/
  duration : Nat
  deriving DecidableEq, Repr

/-- The time that a list of queries took. -/
def Query.total : List Query → Nat
  | [] => 0
  | query :: rest => query.duration + total rest

/-- The queries answered so far, and when the clock was started. -/
structure Timings where
  /-- When the clock was started. -/
  start : Nat
  /-- The answered queries, in order. -/
  queries : List Query
  deriving DecidableEq, Repr

/-! ## Recording -/

/-- Surroundings with a clock. -/
class Clock (m : Type → Type) where
  /-- The time in nanoseconds. -/
  now : m Nat

/-- Surroundings that watch queries. -/
class Watch (m : Type → Type) where
  /-- The time in nanoseconds. -/
  now : m Nat
  /-- Records the answer to a query that began at a time. -/
  record : Phase → Bool → Nat → m Unit

/-- No clock runs, and nothing is recorded. -/
@[default_instance]
instance : Watch Id where
  now := (0 : Nat)
  record _ _ _ := ()

namespace Timings

/-- No query is answered yet, and the clock starts now. -/
def new {m : Type → Type} [Monad m] [Clock m] : m Timings := do
  return ⟨← Clock.now, []⟩

/-- Records the answer to a query that began at `start` and has it now. -/
def record (timings : Timings) (phase : Phase) (satisfiable : Bool) (start now : Nat) : Timings :=
  { timings with queries := timings.queries ++ [⟨phase, satisfiable, now - start⟩] }

instance {m : Type → Type} [Monad m] [Clock m] : Watch (StateT Timings m) where
  now := Clock.now (m := m)
  record phase satisfiable start := do
    let now ← (Clock.now : m Nat)
    modify (·.record phase satisfiable start now)

end Timings

/-! ## Writing -/

namespace Timing

/-- Text filled up with blanks behind it. -/
def padEnd (width : Nat) (text : String) : String :=
  text ++ String.ofList (List.replicate (width - text.length) ' ')

/-- Text filled up with blanks before it. -/
def padStart (width : Nat) (text : String) : String :=
  String.ofList (List.replicate (width - text.length) ' ') ++ text

/-- A duration in seconds: the whole seconds and the rest are rounded, and so is their sum. -/
def inSeconds (duration : Nat) : Decimal.Binary :=
  (Decimal.Binary.nearest (duration / 1000000000) 1).add
    (.nearest (duration % 1000000000) 1000000000)

/-- A number of seconds with three places, to the nearest, a tie to the even one. -/
def seconds (x : Decimal.Binary) : String :=
  let milliseconds := x.inUnits 1000
  let places := toString (milliseconds % 1000)
  s!"{milliseconds / 1000}." ++ String.ofList (List.replicate (3 - places.length) '0') ++ places ++
    "s"

/-- The difference of two numbers of seconds, with a sign if it is negative. -/
def difference (x y : Decimal.Binary) : String :=
  let below := y.excess x
  if below.significand = 0 then seconds (x.excess y) else "-" ++ seconds below

/-- A number of queries, in a column. -/
def counted (count : Nat) : String :=
  padStart 5 (toString count) ++ " queries"

end Timing

/-! ## Reports -/

/-- Folds the items of every key by themselves. -/
def foldByKey {α β κ : Type} [BEq κ] [Hashable κ] (key : α → κ) (initial : β) (step : β → α → β)
    (items : List α) : Std.HashMap κ β :=
  items.foldl
    (fun found item =>
      found.insert (key item) (step (found.getD (key item) initial) item)) ∅

namespace Timings

open Timing

/-- The queries of a kind: the kind, their duration and their number.  A kind is a phase, and whether
queries were not satisfiable. -/
abbrev Entry : Type :=
  (Phase × Bool) × (Nat × Nat)

/-- The order of entries, part by part. -/
def Entry.compare : Entry → Entry → Ordering :=
  (@lexOrd (Phase × Bool) (Nat × Nat) lexOrd lexOrd).compare

/-- The durations and numbers of the queries of each kind. -/
def byKind (queries : List Query) : Std.HashMap (Phase × Bool) (Nat × Nat) :=
  foldByKey (fun query => (query.phase, !query.satisfiable)) (0, 0)
    (fun (duration, count) query => (duration + query.duration, count + 1)) queries

/-- The line of an entry. -/
def Entry.line : Entry → String
  | ((phase, unsatisfiable), (duration, count)) =>
      let answer := if unsatisfiable then "unsat" else "sat"
      "    " ++ padEnd 20 (phase.name ++ " " ++ answer) ++ ": " ++
        seconds (inSeconds duration) ++ " " ++ counted count

/-- The report at a time: the total time, the time inside and outside the solver, and a line for each
kind of queries. -/
def report (timings : Timings) (now : Nat) : String :=
  let total := inSeconds (now - timings.start)
  let inSolver := inSeconds (Query.total timings.queries)
  let entries := (byKind timings.queries).toList.mergeSort fun e e' => (Entry.compare e e').isLE
  "\n".intercalate (
    [padEnd 24 "total" ++ ": " ++ seconds total,
      "  " ++ padEnd 22 "solver total" ++ ": " ++ seconds inSolver ++ " " ++
        counted timings.queries.length] ++
    entries.map Entry.line ++
    ["  " ++ padEnd 22 "outside solver" ++ ": " ++ difference total inSolver])

end Timings

end Trivalent
