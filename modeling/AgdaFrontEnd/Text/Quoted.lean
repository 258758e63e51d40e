import AgdaFrontEnd.Text.Basic
import AgdaFrontEnd.Text.Printable

/-!
# Quoted texts

Messages show a text between quotes so that every character of it can be told apart.  Single
quotes are used unless the text holds a single quote and no double quote.  The quote in use and
the backslash take a backslash; the line feed, the carriage return and the tab have letters of
their own; every other unprintable character is written by its code point in two, four or eight
hexadecimal digits.

* `Text.quoted`: the quoted text.
* `Text.hex`: a code point in hexadecimal digits.
-/

namespace AgdaFrontEnd

namespace Text

/-- The last `width` hexadecimal digits of a number. -/
def hex : (width n : Nat) → Text
  | 0, _ => []
  | width + 1, n => hex width (n / 16) ++ [Nat.digitChar (n % 16)]

/-- One character between quotes `q`. -/
def quotedChar (q c : Char) : Text :=
  if c = q || c = '\\' then ['\\', c]
  else if c = '\n' then ['\\', 'n']
  else if c = '\r' then ['\\', 'r']
  else if c = '\t' then ['\\', 't']
  else if isPrintable c then [c]
  else if c.toNat < 0x100 then ['\\', 'x'] ++ hex 2 c.toNat
  else if c.toNat < 0x10000 then ['\\', 'u'] ++ hex 4 c.toNat
  else ['\\', 'U'] ++ hex 8 c.toNat

/-- The quote that a text is put between. -/
def quoteFor (t : Text) : Char := if t.contains '\'' && !t.contains '"' then '"' else '\''

/-- The text between quotes. -/
def quoted (t : Text) : Text :=
  let q := quoteFor t
  [q] ++ t.flatMap (quotedChar q) ++ [q]

end Text

end AgdaFrontEnd
