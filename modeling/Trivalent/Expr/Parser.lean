import Trivalent.Expr.Basic
import Trivalent.Grammar.Rule
import Trivalent.NameTable
import Trivalent.Term
import Trivalent.Text.Blank
import Trivalent.Text.Numeral

/-!
# Reading expressions and terms

Every sign has a symbol and a word: conjunction is `&` or `and`, disjunction `|` or `or`, negation
`~`, `!` or `not`, the constants `$true` or `true` and `$false` or `false`.  A predicate is
referred to by its number, by its name if that is an identifier, or by its name in full if that is
a balanced parenthesised group.  Such a group is tried as a name before it is read as a
parenthesised expression.
-/

namespace Trivalent.Expr

open Grammar (Rule)
open Grammar.Rule

/-! ## Words -/

/-- The characters an identifier may begin with. -/
def isWordStart (c : Char) : Bool :=
  c.isAlpha || c == '_'

/-- The characters of an identifier. -/
def isWordPart (c : Char) : Bool :=
  isWordStart c || Numeral.isDigit c

/-- The words that are signs of the language, and so no identifiers. -/
def reservedWords : List String :=
  ["and", "or", "not", "true", "false", "choice"]

/-- A name that can be referred to as it is. -/
def isIdentifier (name : List Char) : Bool :=
  match name with
  | [] => false
  | c :: rest =>
      isWordStart c && rest.all isWordPart && !reservedWords.contains (String.ofList name)

/-- No character of an identifier follows. -/
def wordEnd : Rule Unit :=
  absent (satisfying "identifier" isWordPart)

/-- A sign that is a word. -/
def wordSign (spelling : String) : Rule Unit :=
  Rule.bind (spelled spelling) fun _ => wordEnd

/-- Blanks, tabs, carriage returns and line feeds between signs. -/
def blanks : Rule Unit :=
  quiet (many (satisfying "blank" fun c => c == ' ' || c == '\t' || c == '\n' || c == '\r'))

/-- The characters of an identifier that is no reserved word. -/
def identifierText : Rule Unit := do
  absent (firstOf (reservedWords.map wordSign))
  let _ ← satisfying "identifier" isWordStart
  many (satisfying "identifier" isWordPart)

/-- An identifier. -/
def identifier : Rule (List Char) :=
  matched (orElse (quiet identifierText) (expect "identifier"))

/-- The number of characters before the parenthesis that closes one more than are open, or of all
characters if there is none: `depth` ones are open, and `before` characters were read. -/
def enclosedFrom (depth before : Nat) : List Char → Nat
  | [] => before
  | c :: rest =>
      if c = '(' then enclosedFrom (depth + 1) (before + 1) rest
      else if c = ')' then
        match depth with
        | 0 => before
        | depth + 1 => enclosedFrom depth (before + 1) rest
      else enclosedFrom depth (before + 1) rest

/-- Text in which parentheses are balanced, up to where a parenthesis closes that is not opened in
it.  There another group could have followed. -/
def balanced : Rule Unit :=
  fun input =>
    let rest := input.drop (enclosedFrom 0 0 input.chars)
    ⟨some ((), rest), some ⟨rest.length, ["\"(\""]⟩⟩

/-- A parenthesised group. -/
def group : Rule Unit := do
  spelled "("
  balanced
  spelled ")"

/-! ## Atoms -/

/-- A predicate by its name in full or by an identifier. -/
def named (names : NameTable Nat) : Rule Nat :=
  let meaning := fun name => names.get? (String.ofList name)
  orElse (select "predicate name" meaning (matched group))
    (select "known predicate" meaning identifier)

/-- The digits of a number. -/
def digit : Rule Char :=
  satisfying "['0'..='9']" Numeral.isDigit

/-- A predicate by its number. -/
def numbered : Rule Nat :=
  select "predicate id" Numeral.unsigned?
    (do
      let number ← matched (do let _ ← digit; many digit)
      wordEnd
      pure number)

/-- A constant. -/
def truthValue : Rule Bool :=
  orElse
    (Rule.bind (orElse (spelled "$true") (wordSign "true")) fun _ => Rule.pure true)
    (Rule.bind (orElse (spelled "$false") (wordSign "false")) fun _ => Rule.pure false)

/-! ## Expressions -/

/-- The sign of disjunction. -/
def orSign : Rule Unit :=
  orElse (spelled "|") (wordSign "or")

/-- The sign of conjunction. -/
def andSign : Rule Unit :=
  orElse (spelled "&") (wordSign "and")

/-- The signs of negation. -/
def notSign : Rule Unit :=
  firstOf [spelled "~", spelled "!", wordSign "not"]

/-- Operands joined by a sign, from left to right. -/
def chain (sign : Rule Unit) (join : List Expr → Expr) (operand : Rule Expr) : Rule Expr :=
  Rule.bind operand (grow fun before => do
    blanks
    sign
    blanks
    let next ← operand
    pure (join [before, next]))

/-- Conjunctions of operands, joined by disjunction. -/
def disjunction (operand : Rule Expr) : Rule Expr :=
  chain orSign disj (chain andSign conj operand)

/-- An operand: a negation, an atom or a parenthesised expression, nested at most `depth` deep. -/
def operandTo (names : NameTable Nat) : Nat → Rule Expr
  | 0 => fail
  | depth + 1 =>
      firstOf [
        do
          notSign
          blanks
          let body ← operandTo names depth
          pure (neg body),
        Rule.bind truthValue fun value => Rule.pure (.literal value),
        Rule.bind numbered fun id => Rule.pure (.predicate id),
        Rule.bind (named names) fun id => Rule.pure (.predicate id),
        do
          spelled "("
          blanks
          let body ← disjunction (operandTo names depth)
          blanks
          spelled ")"
          pure body]

/-- An expression.  Every level of nesting takes a character, so the length of the text bounds
the depth. -/
def expression (names : NameTable Nat) : Rule Expr :=
  fun input => disjunction (operandTo names (input.length + 1)) input

/-- A choice between two expressions. -/
def choice (names : NameTable Nat) : Rule Term := do
  spelled "choice"
  blanks
  spelled "("
  blanks
  let left ← expression names
  blanks
  spelled ","
  blanks
  let right ← expression names
  blanks
  spelled ")"
  pure (.choice left right)

/-- A choice or an expression, with blanks around it. -/
def term (names : NameTable Nat) : Rule Term := do
  blanks
  let term ← orElse (choice names)
    (Rule.bind (expression names) fun body => Rule.pure (.plain body))
  blanks
  pure term

/-- Reads an expression.  White space at the ends is dropped first, so a failure is located in the
trimmed text. -/
def parse (names : NameTable Nat) (text : List Char) : Except Grammar.Failure Expr :=
  (expression names).readAll (Text.trim text)

end Trivalent.Expr

namespace Trivalent.Term

/-- Reads a term. -/
def parse (names : NameTable Nat) (text : List Char) : Except Grammar.Failure Term :=
  (Expr.term names).readAll text

end Trivalent.Term
