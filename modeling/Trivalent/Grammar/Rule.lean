import Trivalent.Ascending
import Trivalent.Grammar.Input
import Trivalent.Text.Bytes

/-!
# Grammar rules

A rule reads the front of a text and tells what it read and what is left.  Beside its answer it
keeps the furthest place at which something else was expected, with everything that was expected
there: that is the diagnosis of a text that cannot be read.  Choice is ordered: a later alternative
is tried only when the earlier one fails.
-/

namespace Trivalent.Grammar

/-- What was expected at the furthest place that was reached. -/
structure Miss where
  /-- The number of characters left at that place. -/
  left : Nat
  /-- What was expected there, in the order of discovery. -/
  expected : List String

/-- The further of two places, or both expectations at the same place. -/
def Miss.join (a b : Miss) : Miss :=
  if a.left < b.left then a
  else if b.left < a.left then b
  else ⟨a.left, a.expected ++ b.expected⟩

/-- The further of two places, of which either may be absent. -/
def furthest : Option Miss → Option Miss → Option Miss
  | none, b => b
  | a, none => a
  | some a, some b => some (a.join b)

@[simp]
theorem furthest_none (a : Option Miss) : furthest a none = a := by
  cases a <;> rfl

@[simp]
theorem none_furthest (a : Option Miss) : furthest none a = a :=
  rfl

/-- What a rule makes of a text. -/
structure Outcome (α : Type) where
  /-- The value read and the text that is left, if the rule succeeds. -/
  read : Option (α × Input)
  /-- The furthest unmet expectation. -/
  miss : Option Miss

/-- A way to read a value from the front of a text. -/
def Rule (α : Type) : Type :=
  Input → Outcome α

namespace Rule

variable {α β : Type}

/-- Reads nothing. -/
protected def pure (value : α) : Rule α :=
  fun input => ⟨some (value, input), none⟩

/-- Reads by one rule and then by another, which may depend on what the first one read. -/
protected def bind (rule : Rule α) (next : α → Rule β) : Rule β :=
  fun input =>
    let before := rule input
    match before.read with
    | none => ⟨none, before.miss⟩
    | some (value, rest) =>
        let after := next value rest
        ⟨after.read, furthest before.miss after.miss⟩

instance : Monad Rule where
  pure := Rule.pure
  bind := Rule.bind

/-- Fails without an expectation of its own. -/
def fail : Rule α :=
  fun _ => ⟨none, none⟩

/-- Fails and tells what it wanted here. -/
def expect (wanted : String) : Rule α :=
  fun input => ⟨none, some ⟨input.length, [wanted]⟩⟩

/-- The first rule, or the second where the first one fails. -/
def orElse (first second : Rule α) : Rule α :=
  fun input =>
    let outcome := first input
    if outcome.read.isSome then outcome
    else
      let alternative := second input
      ⟨alternative.read, furthest outcome.miss alternative.miss⟩

/-- The first of several rules that succeeds. -/
def firstOf (rules : List (Rule α)) : Rule α :=
  rules.foldr orElse fail

/-- A rule whose unmet expectations are not reported. -/
def quiet (rule : Rule α) : Rule α :=
  fun input => ⟨(rule input).read, none⟩

/-- Succeeds, reading nothing, where a rule fails. -/
def absent (rule : Rule α) : Rule Unit :=
  fun input => ⟨if (rule input).read.isSome then none else some ((), input), none⟩

/-- One character that satisfies `accept`, called `wanted` where it is missing. -/
def satisfying (wanted : String) (accept : Char → Bool) : Rule Char :=
  fun input =>
    match input.next? with
    | some (c, rest) => if accept c then ⟨some (c, rest), none⟩ else expect wanted input
    | none => expect wanted input

/-- A fixed text.  Where it is missing it is called by its spelling in double quotes. -/
def spelled (spelling : String) : Rule Unit :=
  fun input =>
    match input.strip? spelling.toList with
    | some rest => ⟨some ((), rest), none⟩
    | none => expect ("\"" ++ spelling ++ "\"") input

/-- A rule as often as it succeeds, at most `count` times. -/
def upTo (rule : Rule α) : Nat → Rule Unit
  | 0 => Rule.pure ()
  | count + 1 => orElse (Rule.bind rule fun _ => upTo rule count) (Rule.pure ())

/-- A rule as often as it succeeds.  Rules that are repeated read something each time, so the
length of the text bounds their number; the last attempt is the one that fails. -/
def many (rule : Rule α) : Rule Unit :=
  fun input => upTo rule (input.length + 1) input

/-- A value that grows by a rule as often as the rule succeeds, at most `count` times. -/
def growUpTo (step : α → Rule α) : Nat → α → Rule α
  | 0, value => Rule.pure value
  | count + 1, value => fun input =>
      let grown := step value input
      match grown.read with
      | none => ⟨some (value, input), grown.miss⟩
      | some (next, rest) =>
          let after := growUpTo step count next rest
          ⟨after.read, furthest grown.miss after.miss⟩

/-- A value that grows by a rule as often as the rule succeeds. -/
def grow (step : α → Rule α) (value : α) : Rule α :=
  fun input => growUpTo step (input.length + 1) value input

/-- The text that a rule reads. -/
def matched (rule : Rule Unit) : Rule (List Char) :=
  fun input =>
    let outcome := rule input
    match outcome.read with
    | none => ⟨none, outcome.miss⟩
    | some (_, rest) => ⟨some (input.chars.take (input.length - rest.length), rest), outcome.miss⟩

/-- A rule whose value must have a meaning.  Where it has none the rule fails behind the text that
it read, and calls what it wanted `wanted`. -/
def select (wanted : String) (meaning : α → Option β) (rule : Rule α) : Rule β :=
  Rule.bind rule fun value =>
    match meaning value with
    | some result => Rule.pure result
    | none => expect wanted

/-- The end of the text. -/
def atEnd : Rule Unit :=
  fun input => if input.chars.isEmpty then ⟨some ((), input), none⟩ else expect "EOF" input

end Rule

/-! ## Reading a whole text -/

/-- Why a text cannot be read: the furthest place that was reached, and what was expected there. -/
structure Failure where
  /-- The number of bytes before that place. -/
  offset : Nat
  /-- The line of that place, from one. -/
  line : Nat
  /-- The column of that place, in characters from one. -/
  column : Nat
  /-- What was expected, ascending. -/
  expected : List String

namespace Failure

/-- What was expected, as one phrase. -/
def expectation (failure : Failure) : String :=
  match failure.expected with
  | [wanted] => wanted
  | wanted => "one of " ++ ", ".intercalate wanted

/-- The failure as a message. -/
def message (failure : Failure) : String :=
  s!"error at {failure.line}:{failure.column}: expected " ++ failure.expectation

end Failure

/-- The failure to read `text` of which the furthest expectation is `miss`. -/
def Miss.locate (text : List Char) (miss : Miss) : Failure :=
  let before := text.take (text.length - miss.left)
  { offset := Text.bytes before
    line := before.count '\n' + 1
    column := (before.reverse.takeWhile (· ≠ '\n')).length + 1
    expected := ascending miss.expected }

/-- Reads a whole text by a rule. -/
def Rule.readAll {α : Type} (rule : Rule α) (text : List Char) : Except Failure α :=
  let whole := Rule.bind rule fun value => Rule.bind Rule.atEnd fun _ => Rule.pure value
  let outcome := whole (Input.ofText text)
  match outcome.read with
  | some (value, _) => .ok value
  | none => .error ((outcome.miss.getD ⟨text.length, []⟩).locate text)

end Trivalent.Grammar
