import Trivalent.Text.Split

/-!
# File names

The file name in a path, and the path that belongs to the abstract counterpart of a model.
Repeated slashes and components that are a single dot name nothing, and are kept only in front of a
component that does.
-/

namespace Trivalent.FileName

/-- A path: the sign of the directory it starts from, if it has one, and what follows, cut at the
slashes. -/
structure Path where
  /-- A slash for the root, a dot for the current directory, or nothing. -/
  start : List Char
  /-- The rest, cut at its slashes. -/
  parts : List (List Char)
  deriving DecidableEq, Repr

namespace Path

/-- The path that a text stands for. -/
def ofText : List Char → Path
  | '/' :: rest => ⟨['/'], Text.splitAt '/' rest⟩
  | ['.'] => ⟨['.'], []⟩
  | '.' :: '/' :: rest => ⟨['.'], Text.splitAt '/' ('/' :: rest)⟩
  | text => ⟨[], Text.splitAt '/' text⟩

/-- The text of a path. -/
def text (path : Path) : List Char :=
  path.start ++ ['/'].intercalate path.parts

/-- Whether a part names nothing. -/
def isIdle (part : List Char) : Bool :=
  part.isEmpty || part == ['.']

/-- A path without the parts at its end that name nothing. -/
def trimmed (path : Path) : Path :=
  { path with parts := (path.parts.reverse.dropWhile isIdle).reverse }

/-- The last part that names something, unless it is the way up. -/
def fileName? (path : Path) : Option (List Char) :=
  match path.trimmed.parts.getLast? with
  | some name => if name == ['.', '.'] then none else some name
  | none => none

/-- The path without the last part that names something. -/
def parent (path : Path) : Path :=
  trimmed { path with parts := path.trimmed.parts.dropLast }

/-- A text with one more component behind it. -/
def append (text name : List Char) : List Char :=
  match text.getLast? with
  | none => name
  | some '/' => text ++ name
  | some _ => text ++ '/' :: name

/-- The path with another file name; a path without one gets it as a further component. -/
def withFileName (path : Path) (name : List Char) : List Char :=
  append (if path.fileName?.isSome then path.parent.text else path.text) name

end Path

/-- The name of a file before and behind its last dot.  A name whose only dot is its first
character has no extension. -/
def divide (name : List Char) : List Char × Option (List Char) :=
  let behind := (name.reverse.takeWhile (· ≠ '.')).reverse
  let before := name.take (name.length - behind.length - 1)
  if before.isEmpty then (name, none) else (before, some behind)

/-- The file of the abstract model that goes with a model: `_0P` is put before the extension. -/
def abstractCounterpart (text : String) : String :=
  let path := Path.ofText text.toList
  let (stem, extension) := divide (path.fileName?.getD [])
  let ending :=
    match extension with
    | some extension => '.' :: extension
    | none => []
  String.ofList (path.withFileName (stem ++ "_0P".toList ++ ending))

end Trivalent.FileName
