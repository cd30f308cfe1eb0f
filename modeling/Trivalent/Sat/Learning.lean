import Trivalent.Sat.Trail

/-!
# Learned clauses

A clause in conflict is resolved with the clauses that forced its literals, the latest first, until
a single literal of the last decision is left.  The result follows from the clauses, is false under
the trail, and forces that literal as soon as the decisions behind its other literals are withdrawn.
-/

namespace Trivalent.Sat

/-- A clause on its way to be learned. -/
structure Resolvent where
  /-- Whether a symbol was met. -/
  isMet : Array Bool
  /-- The symbols that were met. -/
  met : List Nat
  /-- The number of literals of the last decision that are in the clause. -/
  latest : Nat
  /-- The literals of earlier decisions. -/
  earlier : List Code

namespace Resolvent

/-- No literals. -/
def empty (symbols : Nat) : Resolvent :=
  ⟨Array.replicate symbols false, [], 0, []⟩

/-- Whether the symbol of a literal was met. -/
def hasMet (resolvent : Resolvent) (code : Code) : Bool :=
  resolvent.isMet.getD code.place false

/-- The clause with one more literal, unless it was met or is false without decisions. -/
def take (trail : Trail) (resolvent : Resolvent) (code : Code) : Resolvent :=
  let depth := trail.depthOf code
  if depth = 0 || resolvent.hasMet code then resolvent
  else
    match resolvent with
    | ⟨isMet, met, latest, earlier⟩ =>
        let isMet := isMet.setIfInBounds code.place true
        let met := code.place :: met
        if depth = trail.depth then ⟨isMet, met, latest + 1, earlier⟩
        else ⟨isMet, met, latest, code :: earlier⟩

/-- Resolves literals of the last decision, among the first `count` ones of the trail, until one is
left: the literal that is forced then, and the clause. -/
def resolve (trail : Trail) : Nat → Resolvent → Option (Code × Resolvent)
  | 0, _ => none
  | count + 1, resolvent =>
      match trail.assigned[count]? with
      | none => none
      | some code =>
          if !resolvent.hasMet code then resolve trail count resolvent
          else if resolvent.latest = 1 then some (code.neg, resolvent)
          else
            match trail.reason code with
            | none => none
            | some index =>
                resolve trail count
                  ((trail.clause index).foldl (take trail)
                    { resolvent with latest := resolvent.latest - 1 })

/-- Whether a literal is false because others of the clause are, so that it can be left out. -/
def isRedundant (trail : Trail) (resolvent : Resolvent) (code : Code) : Bool :=
  match trail.reason code with
  | none => false
  | some index => (trail.clause index).all fun l => trail.depthOf l = 0 || resolvent.hasMet l

end Resolvent

/-- What is learned from a conflict. -/
structure Lesson where
  /-- The literal that the learned clause forces. -/
  forced : Code
  /-- The other literals of the clause. -/
  others : List Code
  /-- The symbols that had a part in the conflict. -/
  met : List Nat

namespace Trail

/-- What is learned from a clause in conflict. -/
def lesson (trail : Trail) (conflict : Nat) : Option Lesson := do
  let (forced, resolvent) ← Resolvent.resolve trail trail.assigned.size
    ((trail.clause conflict).foldl (Resolvent.take trail) (.empty trail.symbols))
  return ⟨forced, resolvent.earlier.filter (!resolvent.isRedundant trail ·), resolvent.met⟩

/-- The latest of literals, before the others. -/
def latestFirst (trail : Trail) : List Code → List Code
  | [] => []
  | code :: rest =>
      match latestFirst trail rest with
      | [] => [code]
      | latest :: others =>
          if trail.depthOf latest < trail.depthOf code then code :: latest :: others
          else latest :: code :: others

/-- Learns a clause: withdraws the decisions behind its other literals, and makes true the literal
that it forces then. -/
def learn (trail : Trail) (lesson : Lesson) : Trail :=
  match trail.latestFirst lesson.others with
  | [] => (trail.retreat 0).assign lesson.forced none
  | latest :: others =>
      let trail := (trail.retreat (trail.depthOf latest)).addClause lesson.forced latest others
      trail.assign lesson.forced (some (trail.clauses.size - 1))

end Trail

end Trivalent.Sat
