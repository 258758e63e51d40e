import AgdaFrontEnd.Proofs.Render.Terminal
import AgdaFrontEnd.Proofs.Text.Decimal
import AgdaFrontEnd.Render.Snippet

/-!
# What a snippet shows

A snippet is read as a terminal shows it.  Every line of the range is a row of its own, behind its
number, and the characters of the range are underlined in the colour of the snippet; the others are
dim.

* `SourceRange.Covers`: the characters of a range, in the order of lines and columns.
* `Snippet.shows_row`: a row shows its number and its line, and leaves no style in force.
* `Snippet.markedCells_eq`: the style of every character of a line.
* `Snippet.IsRow`: what a row shows.
* `Snippet.render_marks_range`: a snippet has a row for every line of its range, and marks its range.
-/

namespace AgdaFrontEnd

/-- The character in a column of a line belongs to the range: it stands at the start or after it, and
before the end. -/
def SourceRange.Covers (r : SourceRange) (line column : Int) : Prop :=
  (r.startLine < line ∨ r.startLine = line ∧ r.startCol ≤ column) ∧
    (line < r.endLine ∨ line = r.endLine ∧ column < r.endCol)

/-- The columns of the range count from one, and on one line it does not end before it starts. -/
structure SourceRange.IsRegular (r : SourceRange) : Prop where
  startCol : 1 ≤ r.startCol
  endCol : 1 ≤ r.endCol
  ordered : r.startLine = r.endLine → r.startCol ≤ r.endCol

instance (r : SourceRange) (line column : Int) : Decidable (r.Covers line column) :=
  inferInstanceAs (Decidable (_ ∧ _))

theorem SourceRange.covers_iff {r : SourceRange} {line column : Int} : r.Covers line column ↔
    (r.startLine < line ∨ r.startLine = line ∧ r.startCol ≤ column) ∧
      (line < r.endLine ∨ line = r.endLine ∧ column < r.endCol) := .rfl

namespace Snippet

open Text

/-! ## Cells -/

/-- The style of what is not marked. -/
def dimmed : Style := { dim := true }

/-- The cells of a line of the range. -/
def markedCells (m : Marking) (number : Int) (line : Text) : List Cell :=
  if number = m.range.startLine ∧ number = m.range.endLine then
    cellsOf dimmed (line.before m.start) ++
      cellsOf (dimmed.emphasised m.colour) (line.between m.start m.stop) ++
      cellsOf dimmed (line.after m.stop)
  else if number = m.range.startLine then
    cellsOf dimmed (line.before m.start) ++
      cellsOf (dimmed.emphasised m.colour) (line.after m.start)
  else if number = m.range.endLine then
    cellsOf (Style.emphasised {} m.colour) (line.before m.stop) ++ cellsOf dimmed (line.after m.stop)
  else cellsOf (Style.emphasised {} m.colour) line

/-- The text of a gutter. -/
def gutterText (width : Nat) (number : Int) : Text :=
  padLeft width ' ' (ofInt number) ++ " | ".toList

section Cells

variable {line : Text} (n n' : Int)

theorem not_mem_before {c : Char} (h : c ∉ line) : c ∉ line.before n :=
  fun hm => h (List.mem_of_mem_take hm)

theorem not_mem_after {c : Char} (h : c ∉ line) : c ∉ line.after n :=
  fun hm => h (List.mem_of_mem_drop hm)

theorem not_mem_between {c : Char} (h : c ∉ line) : c ∉ line.between n n' :=
  fun hm => h (List.mem_of_mem_take (List.mem_of_mem_drop hm))

theorem not_mem_gutterText {c : Char} (h : c ∈ ['\x1b', '\n']) (width : Nat) (number : Int) :
    c ∉ gutterText width number := by
  intro hm
  rcases List.mem_append.1 hm with hm | hm
  · rcases List.mem_append.1 hm with hm | hm
    · rw [List.eq_of_mem_replicate hm] at h
      exact absurd h (by decide)
    · rcases mem_ofInt hm with rfl | hd
      · exact absurd h (by decide)
      · revert h hd
        simp only [List.mem_cons, List.not_mem_nil, or_false]
        rintro (rfl | rfl) <;> decide
  · revert hm h
    simp only [List.mem_cons, List.not_mem_nil, or_false]
    rintro (rfl | rfl) <;> decide

theorem shows_gutter (width : Nat) (number : Int) : Shows {} (gutter .terminal width number)
    (cellsOf dimmed (gutterText width number)) {} := by
  have hbody := shows_of_not_mem dimmed (not_mem_gutterText (.head _) width number)
  have h := ((Palette.shows_dim {}).append hbody).append (Palette.shows_reset dimmed)
  simpa [gutter, gutterText] using h

end Cells

section Rows

variable {m : Marking} {number : Int} {line : Text}

theorem shows_marked (hp : m.palette = .terminal) (hc : m.colour.IsNamed) (hl : '\x1b' ∉ line) :
    Shows {} (marked m number line) (markedCells m number line) {} := by
  have hbefore := fun s n => shows_of_not_mem s (not_mem_before n hl)
  have hafter := fun s n => shows_of_not_mem s (not_mem_after n hl)
  have hbetween := fun s n n' => shows_of_not_mem s (not_mem_between n n' hl)
  have hdim := Palette.shows_dim
  have hreset := Palette.shows_reset
  have hemphasis : ∀ s, Shows s m.emphasis [] (s.emphasised m.colour) := by
    rw [Marking.emphasis, hp]
    exact Palette.shows_emphasis hc
  unfold marked markedCells
  rw [hp]
  dsimp only
  split
  · simpa using (((((((hdim {}).append (hbefore dimmed m.start)).append (hemphasis _)).append
      (hbetween _ m.start m.stop)).append (hreset _)).append (hdim {})).append
      (hafter dimmed m.stop)).append (hreset _)
  · split
    · simpa using ((((hdim {}).append (hbefore dimmed m.start)).append (hemphasis _)).append
        (hafter _ m.start)).append (hreset _)
    · split
      · simpa using (((((hemphasis {}).append (hbefore _ m.stop)).append (hreset _)).append
          (hdim {})).append (hafter dimmed m.stop)).append (hreset _)
      · simpa using ((hemphasis {}).append (shows_of_not_mem _ hl)).append (hreset _)

/-- **A row shows its number and its line**, and leaves no style in force for what follows. -/
theorem shows_row (hp : m.palette = .terminal) (hc : m.colour.IsNamed) (hl : '\x1b' ∉ line) :
    Shows {} (row m number line)
      (cellsOf dimmed (gutterText (ofInt m.range.endLine).length number) ++
        markedCells m number line ++ [⟨'\n', {}⟩]) {} := by
  have hline := shows_of_not_mem (t := ['\n']) {} (by decide)
  unfold row
  rw [hp]
  exact ((shows_gutter _ number).append (shows_marked hp hc hl)).append hline

theorem newline_not_mem_marked (hp : m.palette = .terminal) (hc : m.colour.IsNamed)
    (hl : '\n' ∉ line) : '\n' ∉ marked m number line := by
  have hdim : '\n' ∉ Palette.terminal.dim := by decide
  have hreset : '\n' ∉ Palette.terminal.reset := by decide
  have hemphasis : '\n' ∉ m.emphasis := by
    rw [Marking.emphasis, hp]
    rcases hc with hc | hc <;> rw [hc] <;> decide
  have hbefore := fun n => not_mem_before n hl
  have hafter := fun n => not_mem_after n hl
  have hbetween := fun n n' => not_mem_between n n' hl
  unfold marked
  rw [hp]
  split_ifs <;> simp [hdim, hreset, hemphasis, hbefore, hafter, hbetween, hl]

/-- A row is one line. -/
theorem exists_row_eq (hp : m.palette = .terminal) (hc : m.colour.IsNamed) (hl : '\n' ∉ line) :
    ∃ t, row m number line = t ++ ['\n'] ∧ '\n' ∉ t := by
  refine ⟨_, rfl, ?_⟩
  rw [hp, List.mem_append, not_or]
  refine ⟨?_, newline_not_mem_marked hp hc hl⟩
  have hdim : '\n' ∉ Palette.terminal.dim := by decide
  have hreset : '\n' ∉ Palette.terminal.reset := by decide
  have htext := not_mem_gutterText (c := '\n') (.tail _ (.head _)) (ofInt m.range.endLine).length number
  simp only [gutterText, List.mem_append, not_or] at htext
  simp [gutter, hdim, hreset, htext]

end Rows

/-! ## Characters of a line -/

/-- The style of the character in a column of a line of the range. -/
def styleAt (m : Marking) (number column : Int) : Style :=
  if m.range.Covers number column then
    (if number = m.range.startLine then dimmed else {}).emphasised m.colour
  else dimmed

section Characters

variable {m : Marking} {number : Int} {line : Text}

theorem start_nonneg (h : 1 ≤ m.range.startCol) : 0 ≤ m.start := Int.sub_nonneg_of_le h

theorem stop_nonneg (h : 1 ≤ m.range.endCol) : 0 ≤ m.stop := Int.sub_nonneg_of_le h

/-- **The style of every character of a line.**  The four shapes of a row come together in the order of
lines and columns. -/
theorem markedCells_eq (hr : m.range.IsRegular) (h1 : m.range.startLine ≤ number)
    (h2 : number ≤ m.range.endLine) :
    markedCells m number line = cellsBy (fun j => styleAt m number (j + 1)) line := by
  obtain ⟨hstart, hend, hordered⟩ := hr
  have hcut1 := start_nonneg hstart
  have hcut2 := stop_nonneg hend
  unfold markedCells styleAt
  simp only [SourceRange.covers_iff]
  rw [before_of_nonneg hcut1, before_of_nonneg hcut2, after_of_nonneg hcut1,
    after_of_nonneg hcut2, between_of_nonneg hcut1 hcut2]
  unfold Marking.start Marking.stop
  split
  · rw [cellsOf_cut_twice _ _ _ _ _ _ (by omega)]
    congr 1
    funext j
    split_ifs <;> first | rfl | omega
  · split
    · rw [cellsOf_cut]
      congr 1
      funext j
      split_ifs <;> first | rfl | omega
    · split
      · rw [cellsOf_cut]
        congr 1
        funext j
        split_ifs <;> first | rfl | omega
      · rw [cellsOf_eq_cellsBy]
        congr 1
        funext j
        split_ifs <;> first | rfl | omega

/-- A line of a longer range is shown whole, whatever the columns are. -/
theorem map_char_markedCells (h : m.range.startLine < m.range.endLine) :
    (markedCells m number line).map Cell.char = line := by
  unfold markedCells
  rw [if_neg (by omega)]
  split_ifs <;> simp only [List.map_append, map_char_cellsOf, before_append_after]

theorem styleAt_covered (column : Int) :
    (styleAt m number column).underlined = true ∧
      (styleAt m number column).colour = m.colour.number? ↔ m.range.Covers number column := by
  unfold styleAt
  split
  · rename_i h
    exact ⟨fun _ => h, fun _ => ⟨rfl, rfl⟩⟩
  · rename_i h
    exact ⟨fun hd => absurd hd.1 (by decide), fun hcov => absurd hcov h⟩

theorem length_gutterText (h0 : 0 ≤ number) (h : number ≤ m.range.endLine) :
    (gutterText (ofInt m.range.endLine).length number).length =
      (ofInt m.range.endLine).length + 3 := by
  obtain ⟨n, rfl⟩ := Int.eq_ofNat_of_zero_le h0
  obtain ⟨e, he⟩ := Int.eq_ofNat_of_zero_le (h0.trans h)
  rw [he] at h ⊢
  have hle : (ofNat n).length ≤ (ofNat e).length :=
    (Nat.length_toDigits_le_iff (by decide) Nat.length_toDigits_pos).2
      ((Int.ofNat_le.1 h).trans_lt (lt_pow_length_ofNat e))
  have hbar : " | ".toList.length = 3 := by decide
  simp only [gutterText, padLeft, List.length_append, List.length_replicate, hbar, ofInt]
  omega

end Characters

/-! ## Rows of a snippet -/

/-- The rows of lines that are numbered from `number` on. -/
def rowTexts (m : Marking) (number : Int) (ls : List Text) : List Text :=
  ls.mapIdx fun i l => row m (number + i) l

theorem rows_eq_flatten (m : Marking) : ∀ (number : Int) (ls : List Text),
    rows m number ls = (rowTexts m number ls).flatten
  | _, [] => rfl
  | number, l :: ls => by
    have hshift : rowTexts m number (l :: ls) = row m number l :: rowTexts m (number + 1) ls := by
      simp only [rowTexts, List.mapIdx_cons, Int.natCast_zero, Int.add_zero, Int.natCast_succ,
        Int.add_assoc, Int.add_comm 1]
    rw [rows, rows_eq_flatten m (number + 1) ls, hshift, List.flatten_cons]

theorem length_rowTexts (m : Marking) (number : Int) (ls : List Text) :
    (rowTexts m number ls).length = ls.length := List.length_mapIdx

section Lines

variable {range : SourceRange} {ls : List Text}

theorem length_linesOf (hstart : 1 ≤ range.startLine) (hend : range.endLine ≤ ls.length) :
    ((linesOf range ls).length : Int) = range.endLine - range.startLine + 1 := by
  have hordered := range.ordered.1
  rw [linesOf, List.length_drop, List.length_take]
  omega

theorem getElem?_linesOf {i : Nat} {l : Text} (h : (linesOf range ls)[i]? = some l) :
    ls[(range.startLine - 1).toNat + i]? = some l := by
  rw [linesOf, List.getElem?_drop, List.getElem?_take] at h
  split at h
  · exact h
  · cases h

/-- A row of the text of lines is the row of one of them. -/
theorem getElem?_rowTexts {m : Marking} {number : Int} {i : Nat} {t : Text}
    (h : (rowTexts m number ls)[i]? = some t) : ∃ l, ls[i]? = some l ∧ row m (number + i) l = t := by
  rw [rowTexts, List.getElem?_mapIdx] at h
  exact Option.map_eq_some_iff.1 h

end Lines

/-- Rows are shown one after another. -/
theorem shows_rowTexts {m : Marking} {number : Int} {ls : List Text} (hp : m.palette = .terminal)
    (hc : m.colour.IsNamed) (hesc : ∀ l ∈ ls, '\x1b' ∉ l) :
    Shows {} (rowTexts m number ls).flatten
      ((rowTexts m number ls).map fun t => (Text.shown {} t).1).flatten {} := by
  refine shows_flatten fun t ht => ?_
  obtain ⟨i, hi⟩ := List.mem_iff_getElem?.1 ht
  obtain ⟨l, hl, rfl⟩ := getElem?_rowTexts hi
  exact ⟨_, shows_row hp hc (hesc l (List.mem_of_getElem? hl))⟩

/-- What a row shows: its gutter with the number of a line, and the line. -/
structure IsRow (range : SourceRange) (colour : Colour) (number : Int) (line t : Text)
    (gutter body : List Cell) : Prop where
  /-- The row is one line. -/
  ends : ∃ r, t = r ++ ['\n'] ∧ '\n' ∉ r
  /-- The row starts without a style, and its end is reached without one. -/
  shown : Text.shown {} t = (gutter ++ body ++ [⟨'\n', {}⟩], {})
  /-- The number is right-aligned. -/
  aligned : ∃ n, gutter.map Cell.char = List.replicate n ' ' ++ ofInt number ++ " | ".toList
  /-- The gutter is as wide as those of all other rows. -/
  width : gutter.length = (ofInt range.endLine).length + 3
  /-- The line is shown unchanged. -/
  unchanged : range.startLine < range.endLine ∨ range.IsRegular → body.map Cell.char = line
  /-- The characters of the range are underlined in the colour, and no others. -/
  marked : range.IsRegular → ∀ (j : Nat) cell, body[j]? = some cell →
    (cell.style.underlined = true ∧ cell.style.colour = colour.number? ↔ range.Covers number (j + 1))
  /-- The other characters are dim and not underlined. -/
  unmarked : range.IsRegular → ∀ (j : Nat) cell, body[j]? = some cell → ¬ range.Covers number (j + 1) →
    cell.style.dim = true ∧ cell.style.underlined = false

theorem isRow_row {range : SourceRange} {colour : Colour} {number : Int} {line : Text}
    (hc : colour.IsNamed) (hesc : '\x1b' ∉ line) (hline : '\n' ∉ line)
    (h0 : 1 ≤ range.startLine) (h1 : range.startLine ≤ number) (h2 : number ≤ range.endLine) :
    IsRow range colour number line (row ⟨.terminal, colour, range⟩ number line)
      (cellsOf dimmed (gutterText (ofInt range.endLine).length number))
      (markedCells ⟨.terminal, colour, range⟩ number line) := by
  have hcells (hr : range.IsRegular) : markedCells ⟨.terminal, colour, range⟩ number line =
      cellsBy (fun j => styleAt ⟨.terminal, colour, range⟩ number (j + 1)) line :=
    markedCells_eq hr h1 h2
  refine ⟨exists_row_eq rfl hc hline, (shows_row rfl hc hesc).shown_eq, ?_, ?_, ?_, ?_, ?_⟩
  · rw [map_char_cellsOf]
    exact ⟨_, rfl⟩
  · rw [length_cellsOf]
    exact length_gutterText (m := ⟨.terminal, colour, range⟩) (by omega) h2
  · rintro (h | hr)
    · exact map_char_markedCells h
    · rw [hcells hr, map_char_cellsBy]
  · intro hr j cell hcell
    rw [hcells hr, getElem?_cellsBy] at hcell
    obtain ⟨c, -, rfl⟩ := Option.map_eq_some_iff.1 hcell
    exact styleAt_covered (m := ⟨.terminal, colour, range⟩) (j + 1)
  · intro hr j cell hcell hcov
    rw [hcells hr, getElem?_cellsBy] at hcell
    obtain ⟨c, -, rfl⟩ := Option.map_eq_some_iff.1 hcell
    dsimp only
    rw [styleAt, if_neg hcov]
    exact ⟨rfl, rfl⟩

section Snippets

variable {content : Text} {range : SourceRange} {colour : Colour}

theorem render_eq (hstart : 1 ≤ range.startLine) (hend : range.endLine ≤ content.lines.length) :
    render .terminal content range colour = (rowTexts ⟨.terminal, colour, range⟩ range.startLine
      (linesOf range content.lines)).flatten := by
  rw [render, if_neg (by omega), rows_eq_flatten]

/-- **A snippet marks its range.**  It has a row for every line of the range, each of which is there,
and the rows are shown one after another.  A character of the source is underlined in the colour
exactly if the range covers it, and dim otherwise. -/
theorem render_marks_range (hesc : '\x1b' ∉ content) (hc : colour.IsNamed)
    (hstart : 1 ≤ range.startLine) (hend : range.endLine ≤ content.lines.length) :
    ∃ ts : List Text, render .terminal content range colour = ts.flatten ∧
      (ts.length : Int) = range.endLine - range.startLine + 1 ∧
      Text.shown {} (render .terminal content range colour) =
        ((ts.map fun t => (Text.shown {} t).1).flatten, {}) ∧
      ∀ i t, ts[i]? = some t → ∃ line gutter body,
        content.lines[(range.startLine - 1).toNat + i]? = some line ∧
        IsRow range colour (range.startLine + i) line t gutter body := by
  have hlines : ∀ l ∈ content.lines, '\x1b' ∉ l ∧ '\n' ∉ l := fun l hl =>
    ⟨fun h => hesc (mem_of_mem_lines hl h).1, fun h => (mem_of_mem_lines hl h).2 rfl⟩
  have hlength := length_linesOf hstart hend
  rw [render_eq hstart hend]
  refine ⟨_, rfl, ?_, (shows_rowTexts rfl hc fun l hl => ?_).shown_eq, fun i t ht => ?_⟩
  · rw [length_rowTexts, hlength]
  · exact (hlines l (List.mem_of_mem_take (List.mem_of_mem_drop hl))).1
  · obtain ⟨line, hl, rfl⟩ := getElem?_rowTexts ht
    have hi : i < (linesOf range content.lines).length := (List.getElem?_eq_some_iff.1 hl).1
    have hline := getElem?_linesOf hl
    obtain ⟨hesc', hnewline⟩ := hlines line (List.mem_of_getElem? hline)
    exact ⟨line, _, _, hline, isRow_row hc hesc' hnewline hstart (by omega) (by omega)⟩

end Snippets

/-- Three lines. -/
def sampleSource : Text := "ab\ncd\nef".toList

/-- All of them but the first character and the last one. -/
def sampleRange : SourceRange := ⟨1, 2, 3, 2, by decide⟩

theorem render_marks_range_sample : '\x1b' ∉ sampleSource ∧ Colour.IsNamed .green ∧
    1 ≤ sampleRange.startLine ∧ sampleRange.endLine ≤ sampleSource.lines.length ∧
    sampleRange.IsRegular ∧ ∃ ts : List Text,
      render .terminal sampleSource sampleRange .green = ts.flatten ∧ ts.length = 3 ∧
      ∀ (i : Nat) t, ts[i]? = some t → ∃ line gutter body, sampleSource.lines[i]? = some line ∧
        IsRow sampleRange .green (1 + i) line t gutter body := by
  have hesc : '\x1b' ∉ sampleSource := by decide
  have hgreen : Colour.IsNamed .green := .inr rfl
  have hend : sampleRange.endLine ≤ sampleSource.lines.length := by decide +kernel
  obtain ⟨ts, hts, hlength, -, hrows⟩ := render_marks_range hesc hgreen (by decide) hend
  refine ⟨hesc, hgreen, by decide, hend, ⟨by decide, by decide, by decide⟩, ts, hts,
    Int.ofNat_inj.1 hlength, fun i t ht => ?_⟩
  have hrow := hrows i t ht
  rwa [show (sampleRange.startLine - 1).toNat = 0 from rfl, Nat.zero_add] at hrow

end Snippet

end AgdaFrontEnd
