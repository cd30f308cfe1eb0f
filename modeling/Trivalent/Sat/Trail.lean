import Trivalent.Sat.Code
import Trivalent.Status

/-!
# Trails

A partial assignment of the symbols, as a history of decisions and of what they force.  Each clause
watches two of its literals: as long as neither is false the clause forces nothing, so a literal
that becomes false is looked at only in the clauses that watch it.
-/

namespace Trivalent.Sat

/-- A clause as it is found at a literal that it watches. -/
structure Watcher where
  /-- The clause. -/
  index : Nat
  /-- Another literal of the clause; as long as it is true the clause forces nothing. -/
  blocker : Code

/-- A partial assignment on its way to a model of clauses. -/
structure Trail where
  /-- The clauses, each of two literals at least; a clause watches its first two. -/
  clauses : Array (Array Code)
  /-- The clauses that watch a literal. -/
  watchers : Array (List Watcher)
  /-- The status of a literal; it is unknown when the symbol is not assigned. -/
  statuses : Array Status
  /-- The value that a symbol was assigned last. -/
  values : Array Bool
  /-- The number of decisions before a symbol was assigned, its own included. -/
  depths : Array Nat
  /-- The clause that forced the value of a symbol. -/
  reasons : Array (Option Nat)
  /-- The literals that are true, in the order of their assignment. -/
  assigned : Array Code
  /-- The number of true literals whose consequences were looked at. -/
  looked : Nat
  /-- The number of decisions. -/
  depth : Nat

namespace Trail

/-- No clauses and no assignments, for `symbols` symbols that are expected to have the value
`preferred`. -/
def empty (symbols : Nat) (preferred : Bool) : Trail where
  clauses := #[]
  watchers := Array.replicate (2 * symbols) []
  statuses := Array.replicate (2 * symbols) .unknown
  values := Array.replicate symbols preferred
  depths := Array.replicate symbols 0
  reasons := Array.replicate symbols none
  assigned := #[]
  looked := 0
  depth := 0

/-- The number of symbols. -/
def symbols (trail : Trail) : Nat :=
  trail.values.size

/-- The status of a literal. -/
def status (trail : Trail) (code : Code) : Status :=
  trail.statuses.getD code .unknown

/-- Whether a symbol has a value. -/
def isAssigned (trail : Trail) (place : Nat) : Bool :=
  match trail.status (Code.ofPlace place true) with
  | .unknown => false
  | _ => true

/-- The number of decisions before a literal was assigned. -/
def depthOf (trail : Trail) (code : Code) : Nat :=
  trail.depths.getD code.place 0

/-- The clause that forced the value of the symbol of a literal. -/
def reason (trail : Trail) (code : Code) : Option Nat :=
  trail.reasons.getD code.place none

/-- The literals of a clause. -/
def clause (trail : Trail) (index : Nat) : Array Code :=
  trail.clauses.getD index #[]

/-! ## Assignment -/

/-- Makes a literal true, by force of a clause if there is one. -/
def assign (trail : Trail) (code : Code) (reason : Option Nat) : Trail :=
  { trail with
    statuses := (trail.statuses.setIfInBounds code .yes).setIfInBounds code.neg .no
    values := trail.values.setIfInBounds code.place (!code.isNegative)
    depths := trail.depths.setIfInBounds code.place trail.depth
    reasons := trail.reasons.setIfInBounds code.place reason
    assigned := trail.assigned.push code }

/-- Makes a literal true by decision. -/
def decide (trail : Trail) (code : Code) : Trail :=
  { trail with depth := trail.depth + 1 }.assign code none

/-- Withdraws the assignments behind a number of decisions; they are among the last `count`
ones. -/
def withdraw (depth : Nat) : Nat → Trail → Trail
  | 0, trail => trail
  | count + 1, trail =>
      match trail.assigned.back? with
      | none => trail
      | some code =>
          if trail.depthOf code ≤ depth then trail
          else
            withdraw depth count
              { trail with
                statuses :=
                  (trail.statuses.setIfInBounds code .unknown).setIfInBounds code.neg .unknown
                assigned := trail.assigned.pop }

/-- Goes back to where there were only `depth` decisions. -/
def retreat (trail : Trail) (depth : Nat) : Trail :=
  let trail := withdraw depth trail.assigned.size trail
  { trail with depth, looked := min trail.looked trail.assigned.size }

/-! ## Clauses -/

/-- A clause watches a literal. -/
def watch (trail : Trail) (code : Code) (watcher : Watcher) : Trail :=
  { trail with watchers := trail.watchers.modify code (watcher :: ·) }

/-- Adds a clause that watches its first two literals. -/
def addClause (trail : Trail) (first second : Code) (others : List Code) : Trail :=
  let index := trail.clauses.size
  let clauses := trail.clauses.push (first :: second :: others).toArray
  ({ trail with clauses }.watch first ⟨index, second⟩).watch second ⟨index, first⟩

/-- The trail of clauses: single literals are true from the start.  There is none if this is a
contradiction. -/
def ofClauses (symbols : Nat) (preferred : Bool) (clauses : List (List Code)) : Option Trail :=
  clauses.foldlM (fun trail clause =>
    match clause with
    | [] => none
    | [code] =>
        match trail.status code with
        | .yes => some trail
        | .no => none
        | .unknown => some (trail.assign code none)
    | first :: second :: others => some (trail.addClause first second others))
    (empty symbols preferred)

end Trail

end Trivalent.Sat
