import AgdaFrontEnd.Render.Style
import AgdaFrontEnd.SourceRange
import AgdaFrontEnd.Text.Cut

/-!
# Source snippets

A snippet shows the lines of a range, each behind its number, with the range underlined in a colour
and the rest dim.

* `Snippet.row`: one line.
* `Snippet.render`: the lines of a range; the whole source, as it is, if the range does not lie in
  it.
-/

namespace AgdaFrontEnd.Snippet

/-- How a range is marked. -/
structure Marking where
  palette : Palette
  colour : Colour
  range : SourceRange

/-- The code that starts the marked part. -/
def Marking.emphasis (m : Marking) : Text := m.palette.colour m.colour ++ m.palette.underline

/-- The position of the first marked character in the first line. -/
def Marking.start (m : Marking) : Int := m.range.startCol - 1

/-- The position past the last marked character in the last line. -/
def Marking.stop (m : Marking) : Int := m.range.endCol - 1

/-- The number of a line, right-aligned. -/
def gutter (p : Palette) (width : Nat) (number : Int) : Text :=
  p.dim ++ Text.padLeft width ' ' (Text.ofInt number) ++ " | ".toList ++ p.reset

/-- A line of the range, with its marked part. -/
def marked (m : Marking) (number : Int) (line : Text) : Text :=
  let p := m.palette
  if number = m.range.startLine ∧ number = m.range.endLine then
    p.dim ++ line.before m.start ++ m.emphasis ++ line.between m.start m.stop ++ p.reset ++ p.dim ++
      line.after m.stop ++ p.reset
  else if number = m.range.startLine then
    p.dim ++ line.before m.start ++ m.emphasis ++ line.after m.start ++ p.reset
  else if number = m.range.endLine then
    m.emphasis ++ line.before m.stop ++ p.reset ++ p.dim ++ line.after m.stop ++ p.reset
  else m.emphasis ++ line ++ p.reset

/-- A line of the range behind its number. -/
def row (m : Marking) (number : Int) (line : Text) : Text :=
  gutter m.palette (Text.ofInt m.range.endLine).length number ++ marked m number line ++ ['\n']

/-- Lines numbered from `number` on. -/
def rows (m : Marking) (number : Int) : List Text → Text
  | [] => []
  | l :: ls => row m number l ++ rows m (number + 1) ls

/-- The lines of a range. -/
def linesOf (range : SourceRange) (ls : List Text) : List Text :=
  (ls.take range.endLine.toNat).drop (range.startLine - 1).toNat

/-- The snippet of a range in a source. -/
def render (p : Palette) (content : Text) (range : SourceRange) (colour : Colour) : Text :=
  let ls := content.lines
  if range.startLine < 1 ∨ (ls.length : Int) < range.endLine then content
  else rows ⟨p, colour, range⟩ range.startLine (linesOf range ls)

end AgdaFrontEnd.Snippet
