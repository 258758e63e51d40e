import AgdaFrontEnd.Binary64.Shortest
import AgdaFrontEnd.Json.Value
import AgdaFrontEnd.Text.Quoted

/-!
# Writing JSON

The written form is pure ASCII: every other character is escaped by its UTF-16 code units.  Items
and members stand on one line, or each on a line of its own behind an indentation.

* `Json.Layout`: one line, or lines indented by a number of blanks.
* `Json.stringText`: a string between quotes.
* `Json.toText`: a value.
-/

namespace AgdaFrontEnd.Json

/-- How the parts of a value are set out. -/
inductive Layout where
  | oneLine
  | indented (width : Nat)
  deriving DecidableEq, Repr

/-- A code unit by its four hexadecimal digits. -/
def unitText (n : Nat) : Text := ['\\', 'u'] ++ Text.hex 4 n

/-- One character of a string. -/
def charText (c : Char) : Text :=
  if c = '"' then ['\\', '"']
  else if c = '\\' then ['\\', '\\']
  else if c = '\n' then ['\\', 'n']
  else if c = '\r' then ['\\', 'r']
  else if c = '\t' then ['\\', 't']
  else if c = '\x0c' then ['\\', 'f']
  else if c = '\x08' then ['\\', 'b']
  else if 0x20 ≤ c.toNat ∧ c.toNat < 0x7F then [c]
  else if c.toNat < 0x10000 then unitText c.toNat
  else
    unitText (0xD800 + (c.toNat - 0x10000) / 0x400) ++ unitText (0xDC00 + (c.toNat - 0x10000) % 0x400)

/-- A string between quotes. -/
def stringText (t : Text) : Text := ['"'] ++ t.flatMap charText ++ ['"']

/-- A floating-point number; those without digits are named. -/
def floatText : Binary64 → Text
  | .nan => "NaN".toList
  | .infinite negative => if negative then "-Infinity".toList else "Infinity".toList
  | x => x.toText

/-- The start of a new line `depth` levels deep; nothing on one line. -/
def Layout.newLine (layout : Layout) (depth : Nat) : Text :=
  match layout with
  | .oneLine => []
  | .indented width => '\n' :: List.replicate (width * depth) ' '

/-- What stands between two parts. -/
def Layout.separator (layout : Layout) (depth : Nat) : Text :=
  match layout with
  | .oneLine => [',', ' ']
  | .indented _ => ',' :: layout.newLine depth

mutual

/-- A value whose parts are `depth + 1` levels deep. -/
def valueText (layout : Layout) (depth : Nat) : Json → Text
  | .null => "null".toList
  | .bool b => if b then "true".toList else "false".toList
  | .int n => Text.ofInt n
  | .float x => floatText x
  | .string t => stringText t
  | .array [] => ['[', ']']
  | .array (v :: vs) =>
    ['['] ++ layout.newLine (depth + 1) ++ valueText layout (depth + 1) v ++
      itemsText layout (depth + 1) vs ++ layout.newLine depth ++ [']']
  | .object [] => ['{', '}']
  | .object ((k, v) :: ms) =>
    ['{'] ++ layout.newLine (depth + 1) ++ stringText k ++ [':', ' '] ++
      valueText layout (depth + 1) v ++ membersText layout (depth + 1) ms ++
      layout.newLine depth ++ ['}']

/-- The items after the first one. -/
def itemsText (layout : Layout) (depth : Nat) : List Json → Text
  | [] => []
  | v :: vs => layout.separator depth ++ valueText layout depth v ++ itemsText layout depth vs

/-- The members after the first one. -/
def membersText (layout : Layout) (depth : Nat) : List (Text × Json) → Text
  | [] => []
  | (k, v) :: ms =>
    layout.separator depth ++ stringText k ++ [':', ' '] ++ valueText layout depth v ++
      membersText layout depth ms

end

/-- The written form of a value. -/
def toText (layout : Layout) (v : Json) : Text := valueText layout 0 v

end AgdaFrontEnd.Json
