import Trivalent.Ascending
import Trivalent.Sat.Incremental
import Trivalent.Sat.Learning
import Trivalent.Sat.Propagation
import Trivalent.Sat.Ranking

/-!
# First models

An engine that finds the first satisfying assignment of clauses, in the order in which variables
are compared from the first one on and one of the two truth values is preferred.

As long as no model is known, decisions are made on the symbols that conflicts turn on.  A model
bounds the first one: the symbols to which it gives the preferred value, from the first symbol on
and without a gap, have that value in the first model too.  The first symbol that is not settled
in this way or forced is decided on first then, in favour of the preferred value.  Either that ends
in a better model or the symbol is forced to the other value, so more and more symbols are settled
until a model is left that agrees with all of them.
-/

namespace Trivalent.Sat

/-- The number of decisions and conflicts after which a search is given up. -/
def patience : Nat :=
  Nat.pow 10 12

/-- A search for the first model of clauses. -/
structure Pursuit where
  /-- The assignment that was reached. -/
  trail : Trail
  /-- What symbols conflicts turn on. -/
  ranking : Ranking
  /-- Whether a model was found. -/
  found : Bool
  /-- The number of conflicts since all decisions were withdrawn. -/
  conflicts : Nat
  /-- The number of conflicts after which all decisions are withdrawn. -/
  span : Nat

namespace Pursuit

/-- A search that has not begun. -/
def initial (trail : Trail) : Pursuit where
  trail
  ranking := .initial trail.symbols
  found := false
  conflicts := 0
  span := 50

/-- The literal to decide on next, if symbols are left. -/
def decision? (preferred : Bool) (pursuit : Pursuit) : Option Code :=
  let trail := pursuit.trail
  let first :=
    if pursuit.found && trail.depth = 0 then (List.range trail.symbols).find? (!trail.isAssigned ·)
    else none
  match first with
  | some place => some (Code.ofPlace place preferred)
  | none =>
      (pursuit.ranking.highest? trail).map fun place =>
        Code.ofPlace place (trail.values.getD place preferred)

/-- Learns from a conflict. -/
def learn (pursuit : Pursuit) (lesson : Lesson) : Pursuit :=
  { pursuit with
    trail := pursuit.trail.learn lesson
    ranking := pursuit.ranking.reward lesson.met
    conflicts := pursuit.conflicts + 1 }

/-- Withdraws all decisions; the next time that happens after some more conflicts. -/
def restart (pursuit : Pursuit) : Pursuit :=
  { pursuit with
    trail := pursuit.trail.retreat 0
    conflicts := 0
    span := pursuit.span + 5 }

/-- Settles symbols by a model, the first ones first and the last `left` ones of all that there are;
there is no trail if all of them are settled. -/
def settle (preferred : Bool) (model : Array Status) : Nat → Trail → Option Trail
  | 0, _ => none
  | left + 1, trail =>
      let code := Code.ofPlace (trail.symbols - (left + 1)) preferred
      match trail.status code with
      | .unknown =>
          match model.getD code .unknown with
          | .yes => settle preferred model left (trail.assign code none)
          | _ => some trail
      | _ => settle preferred model left trail

/-- Searches on, for `steps` decisions and conflicts at most. -/
def run (preferred : Bool) : Nat → Pursuit → Answer (Array Status)
  | 0, _ => .failed
  | steps + 1, pursuit =>
      match pursuit.trail.propagate with
      | (some conflict, trail) =>
          if trail.depth = 0 then .unsatisfiable
          else
            match trail.lesson conflict with
            | none => .failed
            | some lesson => run preferred steps ({ pursuit with trail }.learn lesson)
      | (none, trail) =>
          let pursuit := { pursuit with trail }
          if pursuit.span ≤ pursuit.conflicts then run preferred steps pursuit.restart
          else
            match pursuit.decision? preferred with
            | some code =>
                run preferred steps { pursuit with trail := pursuit.trail.decide code }
            | none =>
                let model := pursuit.trail.statuses
                match settle preferred model pursuit.trail.symbols (pursuit.trail.retreat 0) with
                | some trail => run preferred steps { pursuit with trail, found := true }
                | none => .satisfiable model

end Pursuit

/-! ## The engine -/

/-- The number of variables of clauses, the greatest of their numbers. -/
def symbolsOf (clauses : Array (List Int)) : Nat :=
  clauses.foldl (fun symbols clause => clause.foldl (fun n l => max n l.natAbs) symbols) 0

/-- The statuses of literals in the first satisfying assignment of clauses. -/
def pursue (preferred : Bool) (clauses : Array (List Int)) : Answer (Array Status) :=
  let symbols := symbolsOf clauses
  let coded := clauses.toList.map fun clause => ascending (clause.map Code.ofNumber)
  match Trail.ofClauses symbols preferred coded with
  | none => .unsatisfiable
  | some trail => Pursuit.run preferred patience (.initial trail)

/-- Clauses, and the assignment that was found last. -/
structure Pursued where
  /-- The clauses. -/
  clauses : Array (List Int)
  /-- The statuses of literals. -/
  statuses : Array Status

namespace Pursued

/-- The value of a literal. -/
def value (e : Pursued) (literal : Int) : Option Bool :=
  match e.statuses.getD (Code.ofNumber literal) .unknown with
  | .yes => some true
  | .no => some false
  | .unknown => none

/-- Whether the values of the variables satisfy all clauses. -/
def isModel (e : Pursued) : Bool :=
  satisfies (fun number => (e.value number).getD false) e.clauses.toList

end Pursued

/-- The engine that finds the first satisfying assignment, in the order of the variables.  An
assignment is an answer only if it satisfies the clauses. -/
def firstModel (preferred : Bool) : Engine Pursued where
  fresh := ⟨#[], #[]⟩
  addClause e clause := { e with clauses := e.clauses.push clause }
  solve e :=
    match pursue preferred e.clauses with
    | .satisfiable statuses =>
        let e := { e with statuses }
        (if e.isModel then some true else none, e)
    | .unsatisfiable => (some false, e)
    | .failed => (none, e)
  value := Pursued.value

/-- Where clauses are said to be satisfiable, the values that were found satisfy them. -/
theorem firstModel_satisfies {preferred : Bool} {e : Pursued}
    (found : ((firstModel preferred).solve e).1 = some true) :
    satisfies (fun number => ((firstModel preferred).value ((firstModel preferred).solve e).2
      number).getD false) e.clauses.toList := by
  unfold firstModel at found ⊢
  dsimp only at found ⊢
  split at found
  · split at found
    · rename_i isModel
      exact isModel
    · contradiction
  · simp at found
  · contradiction

end Trivalent.Sat
