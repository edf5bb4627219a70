import RemoteDebugger.Number.Hex
import RemoteDebugger.Text.Printable

/-!
# Quoted text

Text between quotation marks, for use in messages.  The mark itself, the backslash and the control
characters with a short name are escaped by a backslash, and every other character that is not
printable by its code point in braces.
-/

namespace RemoteDebugger.Text

/-- A character as it appears between the given quotation marks. -/
def escape (mark c : Char) : List Char :=
  if c = mark ∨ c = '\\' then ['\\', c]
  else if c = '\n' then ['\\', 'n']
  else if c = '\r' then ['\\', 'r']
  else if c = '\t' then ['\\', 't']
  else if c = '\x00' then ['\\', '0']
  else if isPrintable c then [c]
  else ['\\', 'u', '\x7b'] ++ Hex.padded .lower 1 c.toNat ++ ['\x7d']

/-- A text between the given quotation marks. -/
def quote (mark : Char) (text : List Char) : List Char :=
  mark :: text.flatMap (escape mark) ++ [mark]

end RemoteDebugger.Text
