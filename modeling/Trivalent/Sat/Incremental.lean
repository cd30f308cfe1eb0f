import Trivalent.Sat.Solver
import Trivalent.Sat.Tseytin

/-!
# Solvers with an engine

An engine decides clauses that it is given one after the other.  It becomes a solver for formulas by
way of the Tseytin transformation: the solver keeps one numbering for all formulas since its last
reset, hands the clauses of each formula on as it comes, and reads the values of the atoms back by
their variables.
-/

namespace Trivalent.Sat

/-- A decision procedure for clauses, with states of type `ε`.  A literal is the number of a
variable, from one on, or the negative of that. -/
structure Engine (ε : Type) where
  /-- No clauses. -/
  fresh : ε
  /-- Takes a clause. -/
  addClause : ε → List Int → ε
  /-- Says whether the clauses can be satisfied, unless it finds no answer. -/
  solve : ε → Option Bool × ε
  /-- The value of a literal in the assignment that was found last; a literal without a value may be
  true or false there. -/
  value : ε → Int → Option Bool

/-- What a solver with an engine keeps. -/
structure Incremental (ε : Type) where
  /-- The engine, with the clauses of the formulas. -/
  engine : ε
  /-- The numbering of the variables in these clauses. -/
  context : Context

namespace Engine

variable {ε : Type} (engine : Engine ε)

/-- A fresh engine with a fresh numbering. -/
def initial : Incremental ε :=
  ⟨engine.fresh, .empty⟩

/-- Hands clauses on to the engine. -/
def addClauses (e : ε) (clauses : List Clause) : ε :=
  clauses.foldl (fun e clause => engine.addClause e (clause.map Literal.dimacs)) e

/-- Hands the clauses of a formula on to the engine. -/
def add (s : Incremental ε) (f : Formula) : Incremental ε :=
  let (clauses, context) := tseytin f s.context
  ⟨engine.addClauses s.engine clauses, context⟩

/-- The atoms that have a variable, with its value; an atom is false if its variable may be either,
or if it has none. -/
def model (s : Incremental ε) : Valuation :=
  s.context.onAtoms fun i => (engine.value s.engine (i + 1)).getD false

/-- The solver that has an engine decide the clauses of its formulas. -/
def solver : Solver (Incremental ε) where
  reset _ := engine.initial
  add := engine.add
  solve s :=
    let (answer, e) := engine.solve s.engine
    let s := { s with engine := e }
    match answer with
    | some true => (.satisfiable (engine.model s), s)
    | some false => (.unsatisfiable, s)
    | none => (.failed, s)

end Engine

/-! ## Exact engines -/

/-- The value of a numbered literal. -/
def holds (w : Nat → Bool) (literal : Int) : Bool :=
  w literal.natAbs == decide (0 < literal)

/-- Whether all clauses of numbered literals are satisfied. -/
def satisfies (w : Nat → Bool) (clauses : List (List Int)) : Bool :=
  clauses.all fun clause => clause.any (holds w)

/-- The states of an engine that was given clauses, and may have been asked about them in between.
No number of a literal is zero. -/
inductive Engine.Given {ε : Type} (engine : Engine ε) : List (List Int) → ε → Prop
  | fresh : engine.Given [] engine.fresh
  | addClause {clauses : List (List Int)} {e : ε} {clause : List Int}
      (given : engine.Given clauses e) (proper : 0 ∉ clause) :
      engine.Given (clauses ++ [clause]) (engine.addClause e clause)
  | solve {clauses : List (List Int)} {e : ε} (given : engine.Given clauses e) :
      engine.Given clauses (engine.solve e).2

/-- An engine decides clauses exactly: it always answers, and answers what is the case about the
clauses that it was given. -/
structure Engine.Exact {ε : Type} (engine : Engine ε) : Prop where
  /-- There is an answer. -/
  answers {clauses : List (List Int)} {e : ε} :
    engine.Given clauses e → (engine.solve e).1 ≠ none
  /-- The clauses are satisfied by the values that are found, whatever the other values are. -/
  satisfied {clauses : List (List Int)} {e : ε} : engine.Given clauses e →
    (engine.solve e).1 = some true →
    ∀ w : Nat → Bool,
      (∀ i : Nat, ∀ b ∈ engine.value (engine.solve e).2 (i + 1), w (i + 1) = b) →
      satisfies w clauses
  /-- Clauses that are said not to be satisfiable are not. -/
  unsatisfied {clauses : List (List Int)} {e : ε} : engine.Given clauses e →
    (engine.solve e).1 = some false → ∀ w : Nat → Bool, ¬satisfies w clauses

end Trivalent.Sat
