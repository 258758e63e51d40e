import AgdaFrontEnd.Proofs.Render.Snippet

/-!
# Snippets of one line

A snippet of one line shows the line in three parts, which are cut at the columns of its range.  A range
may be empty and end one column before it starts; then the last part begins before the first one
ends, and a character is shown twice.

* `Snippet.lineShown`: what is shown of the line.
* `Snippet.stripStyles_render_single`: a snippet of one line without its styles.
* `Snippet.empty_span_doubles`: a range whose snippet does not reproduce its line.
-/

namespace AgdaFrontEnd.Snippet

open Text

variable {content : Text} {range : SourceRange} {colour : Colour} {line : Text}

/-- What a snippet shows of the one line of its range.  A range that ends before it starts shows the
character between its ends twice. -/
def lineShown (r : SourceRange) (line : Text) : Text :=
  if r.startCol ≤ r.endCol then line else line.take r.endCol.toNat ++ line.drop (r.endCol.toNat - 1)

theorem map_char_markedCells_single {m : Marking} (hsingle : m.range.startLine = m.range.endLine)
    (hstart : 1 ≤ m.range.startCol) (hend : 1 ≤ m.range.endCol) :
    (markedCells m m.range.startLine line).map Cell.char = lineShown m.range line := by
  have hcut1 := start_nonneg hstart
  have hcut2 := stop_nonneg hend
  have hordered := m.range.ordered.2 hsingle
  rw [markedCells, if_pos ⟨rfl, hsingle⟩]
  simp only [List.map_append, map_char_cellsOf]
  rw [before_of_nonneg hcut1, after_of_nonneg hcut2, between_of_nonneg hcut1 hcut2]
  unfold lineShown Marking.start Marking.stop
  split
  · have htake := List.take_append_drop (m.range.startCol - 1).toNat
      (line.take (m.range.endCol - 1).toNat)
    rw [List.take_take, Nat.min_eq_left (by omega)] at htake
    rw [htake, List.take_append_drop]
  · have hstop : (m.range.startCol - 1).toNat = m.range.endCol.toNat := by omega
    have hback : (m.range.endCol - 1).toNat = m.range.endCol.toNat - 1 := by omega
    rw [hstop, hback, List.drop_eq_nil_of_le (by simp), List.append_nil]

/-- The line is shown unchanged exactly if the range does not end before it starts, or does so behind
the line. -/
theorem lineShown_eq_iff (hend : 1 ≤ range.endCol) :
    lineShown range line = line ↔
      range.startCol ≤ range.endCol ∨ (line.length : Int) < range.endCol := by
  unfold lineShown
  split
  · rename_i hle
    exact ⟨fun _ => .inl hle, fun _ => rfl⟩
  · rename_i hlt
    constructor
    · intro heq
      have hlength := congrArg List.length heq
      rw [List.length_append, List.length_take, List.length_drop] at hlength
      omega
    · rintro (hle | hbehind)
      · exact absurd hle hlt
      · rw [List.take_of_length_le (by omega), List.drop_eq_nil_of_le (by omega), List.append_nil]

theorem linesOf_single {ls : List Text} (hsingle : range.startLine = range.endLine)
    (hstart : 1 ≤ range.startLine) (hline : ls[(range.startLine - 1).toNat]? = some line) :
    linesOf range ls = [line] := by
  obtain ⟨hlt, hget⟩ := List.getElem?_eq_some_iff.1 hline
  have hend : range.endLine.toNat = (range.startLine - 1).toNat + 1 := by omega
  rw [linesOf, hend, List.drop_take, Nat.add_sub_cancel_left, List.drop_eq_getElem_cons hlt, hget]
  rfl

/-- What a snippet of one line is without its styles. -/
theorem stripStyles_render_eq (hesc : '\x1b' ∉ content) (hc : colour.IsNamed)
    (hsingle : range.startLine = range.endLine) (hstart : 1 ≤ range.startLine)
    (hstartCol : 1 ≤ range.startCol) (hendCol : 1 ≤ range.endCol)
    (hline : content.lines[(range.startLine - 1).toNat]? = some line) :
    (render .terminal content range colour).stripStyles =
      ofInt range.startLine ++ " | ".toList ++ lineShown range line ++ ['\n'] := by
  have hlt := (List.getElem?_eq_some_iff.1 hline).1
  have hesc' : '\x1b' ∉ line := fun h => hesc (mem_of_mem_lines (List.mem_of_getElem? hline) h).1
  have hrow : Text.Shows {} (row ⟨.terminal, colour, range⟩ range.startLine line) _ {} :=
    shows_row rfl hc hesc'
  have hwidth : gutterText (ofInt range.endLine).length range.startLine =
      ofInt range.startLine ++ " | ".toList := by
    rw [gutterText, padLeft, ← hsingle, Nat.sub_self]
    rfl
  have hrender : render .terminal content range colour =
      row ⟨.terminal, colour, range⟩ range.startLine line := by
    rw [render, if_neg (by omega), linesOf_single hsingle hstart hline, rows, rows, List.append_nil]
  rw [hrender, ← map_char_shown {}, hrow.shown_eq, List.map_append, List.map_append,
    map_char_cellsOf, hwidth, map_char_markedCells_single hsingle hstartCol hendCol]
  rfl

/-- **A snippet of one line without its styles** is the line behind its number, but that a range which
ends before it starts doubles a character.  So the line is reproduced exactly if the range does not,
or does so behind the line. -/
theorem stripStyles_render_single (hesc : '\x1b' ∉ content) (hc : colour.IsNamed)
    (hsingle : range.startLine = range.endLine) (hstart : 1 ≤ range.startLine)
    (hstartCol : 1 ≤ range.startCol) (hendCol : 1 ≤ range.endCol)
    (hline : content.lines[(range.startLine - 1).toNat]? = some line) :
    (render .terminal content range colour).stripStyles =
        ofInt range.startLine ++ " | ".toList ++ lineShown range line ++ ['\n'] ∧
      ((render .terminal content range colour).stripStyles =
          ofInt range.startLine ++ " | ".toList ++ line ++ ['\n'] ↔
        range.startCol ≤ range.endCol ∨ (line.length : Int) < range.endCol) := by
  have heq := stripStyles_render_eq hesc hc hsingle hstart hstartCol hendCol hline
  refine ⟨heq, ?_⟩
  rw [heq, List.append_left_inj, List.append_right_inj, lineShown_eq_iff hendCol]

/-- A source of one line. -/
def shortSource : Text := "ab".toList

/-- A range that is empty and ends one column before it starts. -/
def emptySpan : SourceRange := ⟨1, 2, 1, 1, by decide⟩

theorem stripStyles_render_single_sample : '\x1b' ∉ shortSource ∧ Colour.IsNamed .red ∧
    emptySpan.startLine = emptySpan.endLine ∧ 1 ≤ emptySpan.startLine ∧ 1 ≤ emptySpan.startCol ∧
    1 ≤ emptySpan.endCol ∧ shortSource.lines[(emptySpan.startLine - 1).toNat]? = some shortSource ∧
    (render .terminal shortSource emptySpan .red).stripStyles = "1 | aab\n".toList := by
  have hesc : '\x1b' ∉ shortSource := by decide
  have hline : shortSource.lines[(emptySpan.startLine - 1).toNat]? = some shortSource := by
    decide +kernel
  refine ⟨hesc, .inl rfl, rfl, by decide, by decide, by decide, hline, ?_⟩
  exact (stripStyles_render_single hesc (.inl rfl) rfl (by decide) (by decide) (by decide) hline).1

/-- **A range that ends before it starts doubles a character**: not every snippet of one line reproduces
the line behind its number. -/
theorem empty_span_doubles : ¬ ∀ (content : Text) (range : SourceRange) (colour : Colour) (line : Text),
    '\x1b' ∉ content → colour.IsNamed → range.startLine = range.endLine → 1 ≤ range.startLine →
      1 ≤ range.startCol → 1 ≤ range.endCol →
      content.lines[(range.startLine - 1).toNat]? = some line →
      (render .terminal content range colour).stripStyles =
        ofInt range.startLine ++ " | ".toList ++ line ++ ['\n'] := by
  intro h
  have hline : shortSource.lines[(emptySpan.startLine - 1).toNat]? = some shortSource := by
    decide +kernel
  have hsame := h shortSource emptySpan .red shortSource (by decide) (.inl rfl) rfl (by decide)
    (by decide) (by decide) hline
  revert hsame
  decide +kernel

end AgdaFrontEnd.Snippet
