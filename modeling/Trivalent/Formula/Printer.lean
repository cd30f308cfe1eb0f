import Trivalent.Formula.Basic

/-!
# Written formulas

Disjunction binds least, then conjunction, then negation; an operand is parenthesised unless it
binds more tightly than its surroundings.  The constants are `$true` and `$false`.
-/

namespace Trivalent.Formula

/-- How tightly a formula binds. -/
def precedence : Formula → Nat
  | .and [] => 1000
  | .or [] => 1000
  | .or _ => 10
  | .and _ => 20
  | .not _ => 30
  | .atom _ => 1000

/-- The text of an operand inside a formula that binds with strength `outer`. -/
def enclose (outer inner : Nat) (text : String) : String :=
  if inner ≤ outer then "(" ++ text ++ ")" else text

mutual

/-- The text of a formula. -/
def text : Formula → String
  | .atom a => a.text
  | .not body => "~" ++ enclose 30 body.precedence body.text
  | .and operands =>
      if operands.isEmpty then "$true" else " & ".intercalate (texts 20 operands)
  | .or operands =>
      if operands.isEmpty then "$false" else " | ".intercalate (texts 10 operands)

/-- The texts of operands inside a formula that binds with strength `outer`. -/
def texts (outer : Nat) : List Formula → List String
  | [] => []
  | f :: rest => enclose outer f.precedence f.text :: texts outer rest

end

end Trivalent.Formula
