import Trivalent.Sat.Trail

/-!
# Consequences

What the true literals of a trail force.  A clause that watches a literal which has become false
goes over to another literal that is not false, or else forces the other literal that it watches;
a clause that cannot do either is in conflict.
-/

namespace Trivalent.Sat.Trail

/-- The place of the first literal of a clause, from a place on, that is not false. -/
def openFrom (trail : Trail) (clause : Array Code) (place : Nat) : Option Nat :=
  if h : place < clause.size then
    match trail.status clause[place] with
    | .no => openFrom trail clause (place + 1)
    | _ => some place
  else none
termination_by clause.size - place

/-- A clause goes over to watch the literal at a place instead of one that it watches. -/
def rewatch (trail : Trail) (index watched place : Nat) : Trail :=
  { trail with clauses := trail.clauses.modify index (·.swapIfInBounds watched place) }

/-- The clauses that watch a literal. -/
def setWatchers (trail : Trail) (code : Code) (watchers : List Watcher) : Trail :=
  { trail with watchers := trail.watchers.setIfInBounds code watchers }

/-- Looks at clauses that watch a literal which has become false, until one is in conflict; `kept`
are those that go on watching it. -/
def visit (code : Code) : List Watcher → List Watcher → Trail → Option Nat × Trail
  | [], kept, trail => (none, trail.setWatchers code kept)
  | watcher :: rest, kept, trail =>
      match trail.status watcher.blocker with
      | .yes => visit code rest (watcher :: kept) trail
      | _ =>
          let index := watcher.index
          let clause := trail.clause index
          let watched := if clause.getD 0 code = code then 0 else 1
          let other := clause.getD (1 - watched) code
          match trail.status other with
          | .yes => visit code rest (⟨index, other⟩ :: kept) trail
          | status =>
              match trail.openFrom clause 2 with
              | some place =>
                  let new := clause.getD place code
                  visit code rest kept
                    ((trail.rewatch index watched place).watch new ⟨index, other⟩)
              | none =>
                  match status with
                  | .no =>
                      (some index, trail.setWatchers code (rest.reverseAux (watcher :: kept)))
                  | _ => visit code rest (watcher :: kept) (trail.assign other (some index))

/-- Looks at the consequences of true literals, of `room` ones at most. -/
def propagateWithin : Nat → Trail → Option Nat × Trail
  | 0, trail => (none, trail)
  | room + 1, trail =>
      match trail.assigned[trail.looked]? with
      | none => (none, trail)
      | some code =>
          let visiting := trail.watchers.getD code.neg []
          let trail := { trail with looked := trail.looked + 1 }.setWatchers code.neg []
          match visit code.neg visiting [] trail with
          | (some conflict, trail) => (some conflict, trail)
          | (none, trail) => propagateWithin room trail

/-- Looks at the consequences of all true literals, until a clause is in conflict.  A symbol is
assigned once, so there are no more literals to look at than symbols. -/
def propagate (trail : Trail) : Option Nat × Trail :=
  propagateWithin (trail.symbols + 1) trail

end Trivalent.Sat.Trail
