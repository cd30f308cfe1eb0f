import Std.Data.HashMap
import Trivalent.Formula.Basic

/-!
# The Tseytin transformation

Formulas as clauses over numbered variables.  An atom gets a variable where it is met first and
keeps it; every conjunction and every disjunction gets a variable of its own, with clauses by which
it is equivalent to its operands.  The numbering goes on from one formula to the next, so formulas
that are translated one after the other share their atoms and nothing else.
-/

namespace Trivalent.Sat

/-! ## Numbering -/

/-- The numbering of atoms and of the variables that the transformation introduces. -/
structure Context where
  /-- The variables of atoms. -/
  indices : Std.HashMap Atom Nat
  /-- The number of variables. -/
  vars : Nat

namespace Context

/-- No variables. -/
def empty : Context :=
  ⟨∅, 0⟩

/-- A new variable. -/
def newVar (context : Context) : Nat × Context :=
  (context.vars, { context with vars := context.vars + 1 })

/-- The variable of an atom, a new one if it has none. -/
def getVar (context : Context) (a : Atom) : Nat × Context :=
  match context.indices[a]? with
  | some i => (i, context)
  | none =>
      let (i, context) := context.newVar
      (i, { context with indices := context.indices.insert a i })

/-- The values that a valuation of variables gives to the atoms; an atom without a variable is
false. -/
def onAtoms (context : Context) (v : Nat → Bool) : Valuation := fun a =>
  match context.indices[a]? with
  | some i => v i
  | none => false

end Context

/-! ## Literals and clauses -/

/-- A variable or its negation. -/
structure Literal where
  /-- The variable. -/
  var : Nat
  /-- Whether the variable is not negated. -/
  positive : Bool
  deriving DecidableEq, Repr

/-- A disjunction of literals. -/
abbrev Clause : Type :=
  List Literal

namespace Literal

/-- The literal of a variable. -/
def of (var : Nat) : Literal :=
  ⟨var, true⟩

/-- The literal that is false when this one is true. -/
def negate (l : Literal) : Literal :=
  { l with positive := !l.positive }

/-- A literal as engines read it: variables count from one there, and a negated one is negative. -/
def dimacs (l : Literal) : Int :=
  (l.var + 1) * (if l.positive then 1 else -1)

/-- The value of a literal. -/
def eval (v : Nat → Bool) (l : Literal) : Bool :=
  v l.var == l.positive

@[simp]
theorem eval_of (v : Nat → Bool) (var : Nat) : (of var).eval v = v var := by
  simp [of, eval]

@[simp]
theorem eval_negate (v : Nat → Bool) (l : Literal) : l.negate.eval v = !l.eval v := by
  obtain ⟨var, positive⟩ := l
  cases h : v var <;> cases positive <;> simp [eval, negate, h]

@[simp]
theorem negate_negate (l : Literal) : l.negate.negate = l := by
  simp [negate]

@[simp]
theorem var_negate (l : Literal) : l.negate.var = l.var :=
  rfl

end Literal

/-- The value of a clause. -/
def Clause.eval (v : Nat → Bool) (clause : Clause) : Bool :=
  clause.any (Literal.eval v)

/-- The clauses by which a literal is equivalent to the conjunction of others. -/
def allOf (olds : List Literal) (new : Literal) : List Clause :=
  olds.map (fun old => [old, new.negate]) ++ [olds.map Literal.negate ++ [new]]

/-- The clauses by which a literal is equivalent to the disjunction of others. -/
def anyOf (olds : List Literal) (new : Literal) : List Clause :=
  olds.map (fun old => [old.negate, new]) ++ [olds ++ [new.negate]]

/-! ## Translation -/

/-- A translation on its way. -/
structure Translation where
  /-- The numbering. -/
  context : Context
  /-- The clauses so far. -/
  out : Array Clause

namespace Translation

/-- A new variable and the clauses that define it. -/
def define (t : Translation) (clauses : Literal → List Clause) : Literal × Translation :=
  let (var, context) := t.context.newVar
  (.of var, ⟨context, t.out ++ clauses (.of var)⟩)

mutual

/-- A literal that is equivalent to a formula, where its clauses hold. -/
def inner (t : Translation) : Formula → Literal × Translation
  | .atom a =>
      let (var, context) := t.context.getVar a
      (.of var, { t with context })
  | .not body =>
      let (l, t) := t.inner body
      (l.negate, t)
  | .and operands =>
      let (olds, t) := t.innerAll operands
      t.define (allOf olds)
  | .or operands =>
      let (olds, t) := t.innerAll operands
      t.define (anyOf olds)

/-- Literals that are equivalent to formulas, one after the other. -/
def innerAll (t : Translation) : List Formula → List Literal × Translation
  | [] => ([], t)
  | f :: rest =>
      let (l, t) := t.inner f
      let (ls, t) := t.innerAll rest
      (l :: ls, t)

end

end Translation

/-- The clauses of a formula, the last of which says that the formula is true, and the numbering
with their variables. -/
def tseytin (f : Formula) (context : Context) : List Clause × Context :=
  let (l, t) := Translation.inner ⟨context, #[]⟩ f
  ((t.out.push [l]).toList, t.context)

end Trivalent.Sat
