import AgdaFrontEnd.Text.Basic

/-!
# Source ranges

A range is a span of source text.  Lines and columns count from one, and the end column is one
past the last character.  A range does not start after it ends; on one line the start column may
be one past the end column, which is how an empty span is written.

* `SourceRange`: the ranges, with their order as a proof field.
* `SourceRange.ofInts`: a range of four numbers, or the `Inverted` ones if they are out of order.
-/

namespace AgdaFrontEnd

/-- A span of source text. -/
structure SourceRange where
  startLine : Int
  startCol : Int
  endLine : Int
  endCol : Int
  /-- The range does not start after it ends. -/
  ordered : startLine ≤ endLine ∧ (startLine = endLine → startCol ≤ endCol + 1)
  deriving DecidableEq, Repr

/-- Four numbers that are no range because they are out of order. -/
structure Inverted where
  startLine : Int
  startCol : Int
  endLine : Int
  endCol : Int
  deriving DecidableEq, Repr

/-- The wording for numbers out of order. -/
def Inverted.message (i : Inverted) : Text :=
  "Range starts after it ends: SourceRange(start_line=".toList ++ Text.ofInt i.startLine ++
    ", start_col=".toList ++ Text.ofInt i.startCol ++ ", end_line=".toList ++
    Text.ofInt i.endLine ++ ", end_col=".toList ++ Text.ofInt i.endCol ++ [')']

namespace SourceRange

/-- The range of four numbers. -/
def ofInts (startLine startCol endLine endCol : Int) : Except Inverted SourceRange :=
  if h : startLine ≤ endLine ∧ (startLine = endLine → startCol ≤ endCol + 1) then
    .ok ⟨startLine, startCol, endLine, endCol, h⟩
  else .error ⟨startLine, startCol, endLine, endCol⟩

/-- Four numbers are a range exactly if they are in order. -/
theorem ofInts_eq_ok_iff {startLine startCol endLine endCol : Int} {r : SourceRange} :
    ofInts startLine startCol endLine endCol = .ok r ↔
      r.startLine = startLine ∧ r.startCol = startCol ∧ r.endLine = endLine ∧ r.endCol = endCol := by
  unfold ofInts
  split
  · constructor
    · intro h
      cases h
      exact ⟨rfl, rfl, rfl, rfl⟩
    · rintro ⟨rfl, rfl, rfl, rfl⟩
      rfl
  · next h =>
    constructor
    · intro hr
      cases hr
    · rintro ⟨rfl, rfl, rfl, rfl⟩
      exact absurd r.ordered h

end SourceRange

end AgdaFrontEnd
