import AgdaFrontEnd.Text.Blank

/-!
# Holes

A hole is a marker `{! ... !}` in a source text.  It does not reach over the end of a line, and it
ends at the first `!}` after its start.

* `Hole`: a marker with its number, its place and its hint.
* `Hole.markers`: the markers of one line, with the column of each.
* `Hole.scan`: the holes of a source text, numbered from zero in textual order.
-/

namespace AgdaFrontEnd

/-- A marker in a source text. -/
structure Hole where
  /-- Its number in the text, from zero. -/
  id : Nat
  /-- Its line, from one. -/
  line : Nat
  /-- The column of its opening brace, from one. -/
  column : Nat
  /-- What stands in it, or a question mark if it is blank. -/
  hint : Text
  deriving DecidableEq, Repr

namespace Hole

mutual

/-- The markers in a line, given from a column on, as columns and bodies. -/
def markersFrom (column : Nat) : Text → List (Nat × Text)
  | '{' :: '!' :: r => bodyFrom column [] (column + 2) r
  | _ :: r => markersFrom (column + 1) r
  | [] => []

/-- The markers in a line, given from inside the one that starts at column `opened`; `body` is what
has been read of it, backwards. -/
def bodyFrom (opened : Nat) (body : Text) (column : Nat) : Text → List (Nat × Text)
  | '!' :: '}' :: r => (opened, body.reverse) :: markersFrom (column + 2) r
  | c :: r => bodyFrom opened (c :: body) (column + 1) r
  | [] => []

end

/-- The markers of a line, as columns and bodies. -/
def markers (line : Text) : List (Nat × Text) := markersFrom 1 line

/-- The hint of a body. -/
def hintOf (body : Text) : Text := if body.strip.isEmpty then ['?'] else body.strip

/-- The markers of lines numbered from `line` on, as lines, columns and bodies. -/
def markersOfLines (line : Nat) : List Text → List (Nat × Nat × Text)
  | [] => []
  | l :: ls => (markers l).map (fun (column, body) => (line, column, body)) ++ markersOfLines (line + 1) ls

/-- Holes of markers, numbered from `id` on. -/
def number (id : Nat) : List (Nat × Nat × Text) → List Hole
  | [] => []
  | (line, column, body) :: ms => ⟨id, line, column, hintOf body⟩ :: number (id + 1) ms

/-- The holes of a source text. -/
def scan (content : Text) : List Hole := number 0 (markersOfLines 1 content.lines)

end Hole

end AgdaFrontEnd
