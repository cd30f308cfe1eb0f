import Trivalent.Encoding.State
import Trivalent.Expr.Weight

/-!
# Terms as formulas

An occurrence of a known predicate has the value of the predicate, and an occurrence of an unknown
one has the value of the wildcard.  So an expression is read pessimistically when the wildcard is
false, and optimistically when it is true.
-/

namespace Trivalent.Encoding

/-- The step that a template leaves. -/
def current : Nat := 0

/-- The step that a template enters. -/
def next : Nat := 1

/-- An occurrence of a predicate. -/
def occurrence (predicate : Nat) (positive : Bool) (step : Nat) : Formula :=
  let unknown := Formula.atom (.predicate predicate .unknown step false)
  let truth := Formula.atom (.predicate predicate .truth step false)
  .disj [
    .conj [unknown, .atom .wildcard],
    .conj [unknown.neg, if positive then truth else truth.neg]]

/-- An expression in negation normal form.  Where it is not, a negation is pushed down first. -/
def normalFormula (step : Nat) : Expr → Formula
  | .literal value => .constant value
  | .predicate id => occurrence id true step
  | .not body =>
      match _ : body.predicate? with
      | some id => occurrence id false step
      | none => normalFormula step body.negate
  | .and operands => .conj (operands.map fun e => normalFormula step e)
  | .or operands => .disj (operands.map fun e => normalFormula step e)
termination_by e => e.weight
decreasing_by
  · exact Expr.weight_negate_lt (by assumption)
  · exact Nat.lt_succ_of_le (Expr.weight_le_weightAll (by assumption))
  · exact Nat.lt_succ_of_le (Expr.weight_le_weightAll (by assumption))

/-- An expression, or its negation, at a step. -/
def exprFormula (e : Expr) (step : Nat) (negated : Bool) : Formula :=
  normalFormula step (e.polarised negated)

/-- An expression, or its negation, holds for some reading of the unknown predicates. -/
def possibly (e : Expr) (step : Nat) (negated : Bool) : Formula :=
  (exprFormula e step negated).substitute .wildcard true

/-- A guard.  A choice whose left side is the constant true always holds, and one whose right side
is the constant true never does; a choice between two constants false is the wildcard. -/
def guard (term : Term) (step : Nat) : Formula :=
  match term with
  | .plain body => exprFormula body step false
  | .choice left right =>
      if left.isLiteral true then .constant true
      else if right.isLiteral true then .constant false
      else if left.isLiteral false && right.isLiteral false then .atom .wildcard
      else
        .conj [
          .disj [exprFormula left step false, exprFormula right step true],
          .disj [exprFormula left step false, exprFormula right step false, .atom .wildcard]]

/-- A predicate takes the status of a choice: it becomes true if the left side holds, false if the
right side does, and unknown if neither side is sure to. -/
def updateChoice (left right : Expr) (predicate : Nat) : Formula :=
  let becomes := fun (status : Status) => statusFormula predicate status next false
  if left.isLiteral true then becomes .yes
  else if left.isLiteral false && right.isLiteral true then becomes .no
  else if left.isLiteral false && right.isLiteral false then becomes .unknown
  else
    .disj [
      .conj [exprFormula left current false, becomes .yes],
      .conj [exprFormula right current false, becomes .no],
      .conj [possibly (.disj [left, right]) current true, becomes .unknown]]

/-- An update: a predicate takes the status of a term. -/
def update (assignment : Assignment) : Formula :=
  updateChoice assignment.value.asChoice.1 assignment.value.asChoice.2 assignment.predicate

end Trivalent.Encoding
