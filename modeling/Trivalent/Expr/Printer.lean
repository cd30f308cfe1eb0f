import Trivalent.Expr.Basic
import Trivalent.Text.Numeral

/-!
# Written expressions

The text of an expression.  Disjunction binds least, then conjunction, then negation; an operand is
parenthesised unless it binds more tightly than its surroundings.  An empty conjunction is written
as the constant it stands for, and still counts as a conjunction among its neighbours.
-/

namespace Trivalent.Expr

/-- How tightly an expression binds. -/
def precedence : Expr → Nat
  | .or _ => 10
  | .and _ => 20
  | .not _ => 30
  | .literal _ => 1000
  | .predicate _ => 1000

/-- The text of an operand inside an expression that binds with strength `outer`. -/
def enclose (outer inner : Nat) (text : List Char) : List Char :=
  if inner ≤ outer then '(' :: text ++ [')'] else text

/-- The text of a constant. -/
def constant (value : Bool) : List Char :=
  if value then "$true".toList else "$false".toList

mutual

/-- The text of an expression whose predicates are written by `name`. -/
def write (name : Nat → List Char) : Expr → List Char
  | .literal value => constant value
  | .predicate id => name id
  | .not body => '~' :: enclose 30 body.precedence (write name body)
  | .and operands =>
      if operands.isEmpty then constant true
      else " & ".toList.intercalate (writeOperands name 20 operands)
  | .or operands =>
      if operands.isEmpty then constant false
      else " | ".toList.intercalate (writeOperands name 10 operands)

/-- The texts of operands inside an expression that binds with strength `outer`. -/
def writeOperands (name : Nat → List Char) (outer : Nat) : List Expr → List (List Char)
  | [] => []
  | e :: rest => enclose outer e.precedence (write name e) :: writeOperands name outer rest

end

/-- The text of an expression whose predicates are written as their numbers. -/
def text (e : Expr) : String :=
  String.ofList (e.write Numeral.digits)

end Trivalent.Expr
