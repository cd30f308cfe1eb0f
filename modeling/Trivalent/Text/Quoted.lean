import Trivalent.Text.Extender
import Trivalent.Text.Printable

/-!
# Quoted text

Text in double quotes, in which every character can be seen: quotes and backslashes are escaped,
and so are control characters, characters that join the one before them and characters that are not
printable.
-/

namespace Trivalent.Text

/-- A character as it stands between quotes. -/
def quotedChar (c : Char) : List Char :=
  if c = '\x00' then ['\\', '0']
  else if c = '\t' then ['\\', 't']
  else if c = '\r' then ['\\', 'r']
  else if c = '\n' then ['\\', 'n']
  else if c = '\\' || c = '"' then ['\\', c]
  else if isExtender c || !isPrintable c then
    '\\' :: 'u' :: '\x7b' :: Nat.toDigits 16 c.toNat ++ ['\x7d']
  else [c]

/-- A text in double quotes. -/
def quoted (text : List Char) : List Char :=
  '"' :: text.flatMap quotedChar ++ ['"']

end Trivalent.Text
