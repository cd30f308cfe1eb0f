import Trivalent.Grammar.Rule
import Trivalent.Text.Blank
import Trivalent.Text.Bytes
import Trivalent.Text.Split
import Trivalent.Text.Width

/-!
# Diagnostics

A message about one byte of a text, drawn below the line that holds it.  A byte that ends a line
reaches into the next one: then both lines are drawn, tied together on their left.
-/

namespace Trivalent

/-- The sequences that begin each part of a drawing, and the one that ends them. -/
structure Palette where
  /-- Begins the kind of the message. -/
  kind : String
  /-- Begins the message. -/
  title : String
  /-- Begins frames and line numbers. -/
  frame : String
  /-- Begins what is marked, the marks and the note. -/
  mark : String
  /-- Ends a part. -/
  reset : String

namespace Palette

/-- Without colours. -/
def plain : Palette :=
  ⟨"", "", "", "", ""⟩

/-- Terminal colours: bright red for the kind, bold for the message, blue for frames, red for
marks. -/
def coloured : Palette :=
  { kind := "\x1b[0m\x1b[1m\x1b[38;5;9m"
    title := "\x1b[0m\x1b[1m"
    frame := "\x1b[0m\x1b[34m"
    mark := "\x1b[0m\x1b[31m"
    reset := "\x1b[0m" }

/-- A part of a frame. -/
def framed (palette : Palette) (text : String) : String :=
  palette.frame ++ text ++ palette.reset

/-- A mark. -/
def marked (palette : Palette) (text : String) : String :=
  palette.mark ++ text ++ palette.reset

end Palette

/-- A message about one byte of a text. -/
structure Diagnostic where
  /-- The name of the text. -/
  origin : String
  /-- The text. -/
  source : List Char
  /-- The line of the byte, from one. -/
  line : Nat
  /-- The column of the byte, in characters from one. -/
  column : Nat
  /-- The message. -/
  title : String
  /-- What is said at the mark. -/
  note : String

namespace Diagnostic

/-- A character of a line, as it is drawn. -/
structure Cell where
  /-- The character. -/
  char : Char
  /-- The number of bytes before it. -/
  start : Nat
  /-- The number of columns it takes. -/
  width : Nat

/-- The cells of a line behind `start` bytes and `drawn` columns.  A tab reaches to the next
multiple of four columns. -/
def cellsFrom (start drawn : Nat) : List Char → List Cell
  | [] => []
  | c :: rest =>
      let width := if c = '\t' then 4 - drawn % 4 else Text.columns c
      ⟨c, start, width⟩ :: cellsFrom (start + c.utf8Size) (drawn + width) rest

/-- The cells of a line. -/
def cells (line : List Char) : List Cell :=
  cellsFrom 0 0 line

/-- The end of a cell in bytes. -/
def Cell.stop (cell : Cell) : Nat :=
  cell.start + cell.char.utf8Size

/-- Whether a cell holds the byte at a place. -/
def Cell.holds (cell : Cell) (place : Nat) : Bool :=
  cell.start ≤ place && place < cell.stop

/-- A cell as text. -/
def Cell.text (cell : Cell) : String :=
  if cell.char = '\t' then String.ofList (List.replicate cell.width ' ')
  else cell.char.toString

/-- The number of columns of cells. -/
def columns : List Cell → Nat
  | [] => 0
  | cell :: rest => cell.width + columns rest

/-- A character as often as the cells have columns. -/
def rule (c : Char) (cells : List Cell) : String :=
  String.ofList (List.replicate (columns cells) c)

/-- A line without the line ends and null characters behind it. -/
def visible (line : List Char) : List Char :=
  Text.dropEndWhile (fun c => c = '\n' || c = '\r' || c = '\x00') line

variable (palette : Palette) (margin : Nat)

/-- What stands left of a line: its number, or blanks as wide, and the frame. -/
def gutter (number : Option Nat) : String :=
  let blanks := fun n => String.ofList (List.replicate n ' ')
  match number with
  | some number =>
      let digits := toString number
      palette.frame ++ blanks (margin - digits.length) ++ digits ++ palette.reset ++ " " ++
        palette.framed "│"
  | none => blanks margin ++ " " ++ palette.framed "│"

/-- A line in which the byte at `place` is marked. -/
def markedLine (cells : List Cell) (place : Nat) : String :=
  String.join (cells.map fun cell =>
    if cell.holds place then palette.marked cell.text else cell.text)

/-- The mark below the byte at `place`, which may be just behind the line. -/
def caretLine (line : List Char) (place : Nat) : String :=
  let behind : Cell := ⟨'\x00', Text.bytes line, 1⟩
  String.join ((cells line ++ [behind]).map fun cell =>
    if cell.holds place then palette.marked (rule '^' [cell])
    else if cell.start < place + 1 then rule ' ' [cell]
    else "")

/-- The drawing of a mark inside one line. -/
def singleLine (number : Nat) (line : List Char) (place : Nat) (note : String) : List String :=
  [gutter palette margin none,
    gutter palette margin (some number) ++ " " ++ markedLine palette (cells line) place,
    gutter palette margin none ++ " " ++ caretLine palette line place ++ " " ++
      palette.marked note]

/-- The drawing of a mark that begins at `place` in one line and ends at the start of the next.
Where only blanks stand before it, its beginning is drawn beside the line, not below it. -/
def twoLines (number : Nat) (first second : List Char) (place : Nat) (note : String) :
    List String :=
  let beside := place ≤ Text.bytes first - Text.bytes (first.dropWhile Text.isBlank)
  let text := fun line => " " ++ String.join ((cells line).map Cell.text)
  let corner := fun (sign : String) => " " ++ palette.marked sign
  let opening :=
    if beside then
      [gutter palette margin (some number) ++ corner "╭" ++ text first]
    else
      [gutter palette margin (some number) ++ "  " ++ text first,
        gutter palette margin none ++ corner "╭" ++
          palette.marked (rule '─' ((cells first).filter (·.start < place + 1)) ++ "^")]
  [gutter palette margin none ++ "  "] ++ opening ++
    [gutter palette margin (some (number + 1)) ++ corner "│" ++ text second,
      gutter palette margin none ++ corner "╰" ++ palette.marked ("^ " ++ note)]

/-- The drawing of a diagnostic. -/
def text (diagnostic : Diagnostic) : String :=
  let lines := Text.splitAt '\n' diagnostic.source
  let index := diagnostic.line - 1
  let first := lines.getD index []
  let place := Text.bytes (first.take (diagnostic.column - 1))
  let crossing := first.length < diagnostic.column && index + 1 < lines.length
  let lastNumber := if crossing then diagnostic.line + 1 else diagnostic.line
  let margin := (toString lastNumber).length
  let body :=
    if crossing then
      twoLines palette margin diagnostic.line (visible first) (visible (lines.getD (index + 1) []))
        place diagnostic.note
    else singleLine palette margin diagnostic.line (visible first) place diagnostic.note
  let header :=
    palette.kind ++ "error" ++ palette.title ++ ": " ++ diagnostic.title ++ palette.reset
  let locus := String.ofList (List.replicate margin ' ') ++ " " ++ palette.framed "┌─" ++ " " ++
    s!"{diagnostic.origin}:{diagnostic.line}:{diagnostic.column}"
  "\n".intercalate (header :: locus :: body ++ ["", ""])

end Diagnostic

/-- The diagnostic of a failure to read an expression. -/
def Grammar.Failure.diagnostic (failure : Grammar.Failure) (origin : String)
    (source : List Char) : Diagnostic :=
  { origin
    source
    line := failure.line
    column := failure.column
    title := "could not parse expression"
    note := "expected " ++ failure.expectation }

end Trivalent
