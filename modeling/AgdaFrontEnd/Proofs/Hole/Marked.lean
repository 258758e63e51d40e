import AgdaFrontEnd.Proofs.Hole.Decomposition
import AgdaFrontEnd.Proofs.Render.SingleLine
import AgdaFrontEnd.Proofs.Render.Stripping

/-!
# Holes in snippets

The columns of a hole are those of a snippet: the snippet of the range that starts at a hole and is as
wide as its marker underlines the marker and nothing else of the line.  A colour may be any code; what
such a code shows by itself stands between the characters of the line and belongs to none of them.

* `Text.shown_append_escape`: a text may be cut before an escape character.
* `Palette.exists_shows_emphasis`: what the codes of a marking do, whatever the colour is.
* `Snippet.IsPartRow`: a row of which one part is underlined; `Snippet.isPartRow_render`: the snippet of a
  part of a line is such a row.
* `Hole.IsMarker`: the marker of a hole in its source.
* `Hole.mem_markersOfLines`, `Hole.pairwise_markersOfLines`: the markers of lines, and their order.
* `Hole.snippets_underline_markers`: scanning and rendering agree on the columns of every hole.
-/

namespace AgdaFrontEnd

/-! ## Texts before an escape character -/

namespace Text

variable {s s' : Style} {t u : Text} {cells : List Cell}

/-- An escape sequence at the start of a text shows nothing. -/
theorem IsSequence.exists_shown_append (h : IsSequence t) (s : Style) :
    ∃ s', ∀ u, shown s (t ++ u) = shown s' u := by
  obtain ⟨ps, l, hps, hl, rfl⟩ := h
  exact ⟨s.after ps l, fun u => by simpa using shows_sequence s ps l hps hl u⟩

theorem shown_kept {c : Char} {r : Text} (h : sequenceLength? (c :: r) = none) (s : Style) :
    shown s (c :: r) = (⟨c, s⟩ :: (shown s r).1, (shown s r).2) := by
  rw [shown, shownFrom, h]
  rfl

/-- A text may be cut before an escape character: no sequence reaches over it. -/
theorem shown_append_escape (s : Style) (t r : Text) : shown s (t ++ '\x1b' :: r) =
    ((shown s t).1 ++ (shown (shown s t).2 ('\x1b' :: r)).1,
      (shown (shown s t).2 ('\x1b' :: r)).2) := by
  induction t using strip_induction generalizing s with
  | nil => rfl
  | sequence t u ht ih =>
    obtain ⟨s', hs'⟩ := ht.exists_shown_append s
    rw [List.append_assoc, hs', hs', ih]
  | kept c u hc ih =>
    rw [List.cons_append, shown_kept (sequenceLength?_append_escape hc r), shown_kept hc, ih,
      List.cons_append]

/-- What a text shows in front of one that starts with an escape character. -/
theorem Shows.after_escape {r : Text} (h : Shows (shown s t).2 ('\x1b' :: r) cells s') :
    Shows s (t ++ '\x1b' :: r) ((shown s t).1 ++ cells) s' := by
  intro u
  have hcut := h u
  rw [List.cons_append] at hcut
  rw [List.append_assoc, List.cons_append, shown_append_escape, hcut, List.append_assoc]

end Text

/-- **The codes of a marking underline** whatever the colour is.  What the code of a colour shows by itself
is told by its text without sequences; the code of a named one shows nothing. -/
theorem Palette.exists_shows_emphasis (colour : Colour) (s : Style) : ∃ code s',
    Text.Shows s (terminal.colour colour ++ terminal.underline) code s' ∧
      code.map Cell.char = (terminal.colour colour).stripStyles ∧ s'.underlined = true ∧
      (colour.IsNamed → code = [] ∧ s'.colour = colour.number?) := by
  have hunderline : terminal.underline = '\x1b' :: "[4m".toList := by decide
  have hshows := shows_underline (Text.shown s (terminal.colour colour)).2
  rw [hunderline] at hshows ⊢
  refine ⟨_, _, hshows.after_escape, ?_, rfl, fun hnamed => ?_⟩
  · rw [List.append_nil, Text.map_char_shown]
  · rw [(shows_colour hnamed s).shown_eq]
    exact ⟨rfl, rfl⟩

namespace Snippet

open Text

/-! ## Snippets of a part of a line -/

/-- The text shows the number of a line, and the line in three parts of which the middle one is
underlined, in the colour if it has a name.  The number and the other two parts are not underlined.  What
the code of the colour shows by itself stands in front of the middle part. -/
structure IsPartRow (colour : Colour) (number : Int) (front middle back t : Text)
    (gutter before code marked after : List Cell) : Prop where
  shown : Text.shown {} t = (gutter ++ (before ++ code ++ marked ++ after) ++ [⟨'\n', {}⟩], {})
  gutter_eq : gutter.map Cell.char = ofInt number ++ " | ".toList
  before_eq : before.map Cell.char = front
  code_eq : code.map Cell.char = (Palette.terminal.colour colour).stripStyles
  marked_eq : marked.map Cell.char = middle
  after_eq : after.map Cell.char = back
  underlined : ∀ cell ∈ marked, cell.style.underlined = true
  plain : ∀ cell ∈ gutter ++ before ++ after, cell.style.underlined = false
  named : colour.IsNamed → code = [] ∧ ∀ cell ∈ marked, cell.style.colour = colour.number?

section

variable {content front middle back : Text} {range : SourceRange} {colour : Colour} {n : Nat}

theorem mem_cellsOf {s : Style} {t : Text} {cell : Cell} (h : cell ∈ cellsOf s t) : cell.style = s := by
  obtain ⟨c, -, rfl⟩ := List.mem_map.1 h
  rfl

/-- The three parts of a line that a range on it cuts. -/
theorem marked_part (number : Int) (hsingle : range.startLine = number ∧ range.endLine = number)
    (hstart : range.startCol = front.length + 1)
    (hend : range.endCol = front.length + middle.length + 1) :
    marked ⟨.terminal, colour, range⟩ number (front ++ (middle ++ back)) =
      Palette.terminal.dim ++ front ++
        (Palette.terminal.colour colour ++ Palette.terminal.underline) ++ middle ++
        Palette.terminal.reset ++ Palette.terminal.dim ++ back ++ Palette.terminal.reset := by
  have hfirst : Marking.start ⟨.terminal, colour, range⟩ = (front.length : Int) := by
    rw [Marking.start, hstart]
    omega
  have hlast : Marking.stop ⟨.terminal, colour, range⟩ = ((front.length + middle.length : Nat) : Int) := by
    rw [Marking.stop, hend]
    omega
  have hcut : front.length + middle.length = (front ++ middle).length := List.length_append.symm
  unfold marked
  rw [if_pos ⟨hsingle.1.symm, hsingle.2.symm⟩, hfirst, hlast,
    before_of_nonneg (Int.natCast_nonneg _), after_of_nonneg (Int.natCast_nonneg _),
    between_of_nonneg (Int.natCast_nonneg _) (Int.natCast_nonneg _), Int.toNat_natCast,
    Int.toNat_natCast, List.take_left, hcut, ← List.append_assoc front, List.take_left,
    List.drop_left, List.drop_left]
  rfl

/-- **The snippet of a part of a line** underlines this part and no other character of the line. -/
theorem isPartRow_render (hesc : '\x1b' ∉ content)
    (hline : content.lines[n]? = some (front ++ (middle ++ back)))
    (hstartLine : range.startLine = n + 1) (hendLine : range.endLine = n + 1)
    (hstart : range.startCol = front.length + 1)
    (hend : range.endCol = front.length + middle.length + 1) :
    ∃ gutter before code marked after, IsPartRow colour (n + 1) front middle back
      (render .terminal content range colour) gutter before code marked after := by
  have hlt := (List.getElem?_eq_some_iff.1 hline).1
  have hesc' : ∀ t, t <:+: front ++ (middle ++ back) → '\x1b' ∉ t := fun t ht h =>
    hesc (mem_of_mem_lines (List.mem_of_getElem? hline) (ht.subset h)).1
  have hfront : '\x1b' ∉ front := hesc' front (List.prefix_append _ _).isInfix
  have hmiddle : '\x1b' ∉ middle := hesc' middle ⟨front, back, by simp⟩
  have hback : '\x1b' ∉ back := hesc' back ⟨front ++ middle, [], by simp⟩
  have hlines : linesOf range content.lines = [front ++ (middle ++ back)] := by
    refine linesOf_single (hstartLine.trans hendLine.symm) (by omega) ?_
    rw [show (range.startLine - 1).toNat = n by omega, hline]
  have hrender : render .terminal content range colour =
      row ⟨.terminal, colour, range⟩ (n + 1) (front ++ (middle ++ back)) := by
    rw [render, if_neg (by omega), hlines, hstartLine, rows, rows, List.append_nil]
  have hwidth : gutterText (ofInt range.endLine).length (n + 1) = ofInt (n + 1) ++ " | ".toList := by
    rw [gutterText, padLeft, hendLine, Nat.sub_self]
    rfl
  obtain ⟨code, s, hcode, hchars, hunderlined, hnamed⟩ :=
    Palette.exists_shows_emphasis colour dimmed
  have hmarked := ((((((((Palette.shows_dim {}).append (shows_of_not_mem dimmed hfront)).append
    hcode).append (shows_of_not_mem s hmiddle)).append (Palette.shows_reset s)).append
    (Palette.shows_dim {})).append (shows_of_not_mem dimmed hback)).append
    (Palette.shows_reset dimmed))
  rw [← marked_part (n + 1) ⟨hstartLine, hendLine⟩ hstart hend] at hmarked
  have hrow : Shows {} (row ⟨.terminal, colour, range⟩ (n + 1) (front ++ (middle ++ back))) _ {} :=
    ((shows_gutter (ofInt range.endLine).length (n + 1)).append hmarked).append
      (shows_of_not_mem (t := ['\n']) {} (by decide))
  refine ⟨cellsOf dimmed (gutterText (ofInt range.endLine).length (n + 1)), cellsOf dimmed front, code,
    cellsOf s middle, cellsOf dimmed back, ?_, ?_, map_char_cellsOf _ _, hchars, map_char_cellsOf _ _,
    map_char_cellsOf _ _, fun cell h => ?_, fun cell h => ?_, fun h => ⟨(hnamed h).1, fun cell hc => ?_⟩⟩
  · rw [hrender, hrow.shown_eq, show cellsOf {} ['\n'] = [⟨'\n', {}⟩] from rfl]
    simp
  · rw [map_char_cellsOf, hwidth]
  · rw [mem_cellsOf h, hunderlined]
  · rcases List.mem_append.1 h with h | h
    · rcases List.mem_append.1 h with h | h <;> rw [mem_cellsOf h] <;> rfl
    · rw [mem_cellsOf h]
      rfl
  · rw [mem_cellsOf hc, (hnamed h).2]

end

end Snippet

namespace Hole

open Decomposition

/-! ## The markers of a line -/

section Line

variable {d : Decomposition} {line : Text} {column : Nat} {m : Nat × Text}

/-- A marker of a line stands at its column, and its body holds nothing that closes it. -/
theorem mem_marks (h : d.IsOf line) (hm : m ∈ d.marks column) : ∃ front back,
    line = front ++ (opener ++ m.2 ++ closer ++ back) ∧ m.1 = column + front.length ∧
      ¬ closer <:+: m.2 := by
  obtain ⟨ps, rest⟩ := d
  induction ps generalizing line column with
  | nil => cases hm
  | cons p ps ih =>
    obtain ⟨-, hb, l, rfl, hl⟩ := isOf_cons.1 h
    rw [marks_cons] at hm
    rcases List.mem_cons.1 hm with rfl | hm
    · exact ⟨p.gap, l, by simp [opener, closer], rfl, hb⟩
    · obtain ⟨front, back, rfl, hcolumn, hbody⟩ := ih hl hm
      refine ⟨p.text ++ front, back, by simp [Piece.text, opener, closer], ?_, hbody⟩
      rw [hcolumn, List.length_append, Nat.add_assoc]

/-- The column behind a marker. -/
def stop (m : Nat × Text) : Nat := m.1 + m.2.length + 4

/-- A marker of a line ends before the next one starts. -/
theorem pairwise_marks (h : d.IsOf line) :
    (d.marks column).Pairwise fun m m' => stop m ≤ m'.1 := by
  obtain ⟨ps, rest⟩ := d
  induction ps generalizing line column with
  | nil => exact .nil
  | cons p ps ih =>
    obtain ⟨-, -, l, -, hl⟩ := isOf_cons.1 h
    rw [marks_cons]
    refine List.pairwise_cons.2 ⟨fun m hm => ?_, ih hl⟩
    obtain ⟨front, -, -, hcolumn, -⟩ := mem_marks hl hm
    rw [hcolumn, stop]
    simp only [Piece.text, opener, closer, List.length_append, List.length_cons, List.length_nil]
    omega

theorem mem_markers (hm : m ∈ markers line) : ∃ front back,
    line = front ++ (opener ++ m.2 ++ closer ++ back) ∧ m.1 = 1 + front.length ∧
      ¬ closer <:+: m.2 := by
  obtain ⟨d, hd⟩ := exists_isOf line
  rw [markers, markersFrom_eq hd] at hm
  exact mem_marks hd hm

theorem pairwise_markers (line : Text) : (markers line).Pairwise fun m m' => stop m ≤ m'.1 := by
  obtain ⟨d, hd⟩ := exists_isOf line
  rw [markers, markersFrom_eq hd]
  exact pairwise_marks hd

end Line

/-! ## The markers of a text -/

section Lines

variable {ls : List Text} {line : Nat} {m : Nat × Nat × Text}

/-- A marker of numbered lines is one of the line that it tells. -/
theorem mem_markersOfLines (hm : m ∈ markersOfLines line ls) :
    ∃ k l, m.1 = line + k ∧ ls[k]? = some l ∧ m.2 ∈ markers l := by
  induction ls generalizing line with
  | nil => cases hm
  | cons l ls ih =>
    rw [markersOfLines] at hm
    rcases List.mem_append.1 hm with hm | hm
    · obtain ⟨m, hml, rfl⟩ := List.mem_map.1 hm
      exact ⟨0, l, rfl, rfl, hml⟩
    · obtain ⟨k, l', hline, hk, hml⟩ := ih hm
      exact ⟨k + 1, l', by omega, hk, hml⟩

/-- The marker stands before the other one: on an earlier line, or it ends before the other one starts. -/
def Precedes (m m' : Nat × Nat × Text) : Prop := m.1 < m'.1 ∨ m.1 = m'.1 ∧ stop m.2 ≤ m'.2.1

/-- **The markers of lines do not overlap**, and are listed in the order of the text. -/
theorem pairwise_markersOfLines (line : Nat) (ls : List Text) :
    (markersOfLines line ls).Pairwise Precedes := by
  induction ls generalizing line with
  | nil => exact .nil
  | cons l ls ih =>
    rw [markersOfLines]
    refine List.pairwise_append.2 ⟨?_, ih (line + 1), fun m hm m' hm' => .inl ?_⟩
    · exact List.pairwise_map.2 ((pairwise_markers l).imp fun h => .inr ⟨rfl, h⟩)
    · obtain ⟨_, -, rfl⟩ := List.mem_map.1 hm
      obtain ⟨k, _, hline, -⟩ := mem_markersOfLines hm'
      show line < m'.1
      omega

end Lines

/-! ## The markers of holes -/

/-- The hole is the marker with this body, between these parts of its line. -/
structure IsMarker (content : Text) (h : Hole) (front body back : Text) : Prop where
  line_pos : 1 ≤ h.line
  line_eq : content.lines[h.line - 1]? = some (front ++ (opener ++ body ++ closer ++ back))
  column_eq : h.column = front.length + 1
  /-- The marker ends at the first place that closes it. -/
  closed : ¬ closer <:+: body
  hint_eq : h.hint = if body.strip = [] then ['?'] else body.strip

variable {content front body back : Text} {h : Hole}

/-- A hole is the marker with one body only. -/
theorem IsMarker.unique {front' body' back' : Text} (hm : IsMarker content h front body back)
    (hm' : IsMarker content h front' body' back') : body = body' := by
  have hline := Option.some.inj (hm.line_eq.symm.trans hm'.line_eq)
  have hlength : front.length = front'.length := by
    have h1 := hm.column_eq
    have h2 := hm'.column_eq
    omega
  obtain ⟨-, hrest⟩ := List.append_inj hline hlength
  have hbody : body ++ '!' :: '}' :: back = body' ++ '!' :: '}' :: back' := by
    simpa [opener, closer] using hrest
  exact (Text.append_pair_inj (by decide) hm.closed hm'.closed hbody).1

/-- The holes of a text are its markers, one by one. -/
theorem exists_marker_of_getElem? {i : Nat} (hi : (scan content)[i]? = some h) :
    ∃ m, (markersOfLines 1 content.lines)[i]? = some m ∧ h.line = m.1 ∧ h.column = m.2.1 ∧
      ∃ front back, IsMarker content h front m.2.2 back := by
  rw [scan, number_eq_mapIdx, List.getElem?_mapIdx] at hi
  obtain ⟨m, hm, rfl⟩ := Option.map_eq_some_iff.1 hi
  refine ⟨m, hm, rfl, rfl, ?_⟩
  obtain ⟨k, l, hline, hk, hml⟩ := mem_markersOfLines (List.mem_of_getElem? hm)
  obtain ⟨front, back, rfl, hcolumn, hbody⟩ := mem_markers hml
  refine ⟨front, back, ?_, ?_, ?_, hbody, ?_⟩
  · show 1 ≤ m.1
    omega
  · show content.lines[m.1 - 1]? = _
    rw [hline, Nat.add_sub_cancel_left, hk]
  · show m.2.1 = front.length + 1
    omega
  · show hintOf m.2.2 = _
    simp [hintOf]

/-- The snippet of the range over a marker underlines the marker and nothing else of its line. -/
theorem IsMarker.exists_isPartRow (hm : IsMarker content h front body back) (hesc : '\x1b' ∉ content)
    {range : SourceRange} (hrange : SourceRange.ofInts h.line h.column h.line
      (h.column + body.length + 4) = .ok range) (colour : Colour) :
    ∃ gutter before code marked after,
      Snippet.IsPartRow colour h.line front (opener ++ body ++ closer) back
        (Snippet.render .terminal content range colour) gutter before code marked after := by
  obtain ⟨hstartLine, hstart, hendLine, hend⟩ := SourceRange.ofInts_eq_ok_iff.1 hrange
  have hcolumn : (h.column : Int) = front.length + 1 := by rw [hm.column_eq]; rfl
  have hwidth : (opener ++ body ++ closer).length = body.length + 4 := by simp [opener, closer]
  have hline : (h.line : Int) = (h.line - 1 : Nat) + 1 := by
    have hpos := hm.line_pos
    omega
  rw [hcolumn] at hstart hend
  rw [hline] at hstartLine hendLine ⊢
  refine Snippet.isPartRow_render hesc ?_ hstartLine hendLine hstart ?_
  · rw [hm.line_eq, List.append_assoc _ closer]
  · rw [hend, hwidth]
    omega

/-- **Scanning and rendering agree on columns.**  Every hole of a text is a marker that stands at its line
and its column, with the hint of its body.  The range from there over the marker is one, and its snippet
underlines the marker and no other character of the line, in any colour.  The holes are listed in the order
of the text, and one ends before the next one starts. -/
theorem snippets_underline_markers (hesc : '\x1b' ∉ content) :
    (∀ h ∈ scan content, ∃ front body back range, IsMarker content h front body back ∧
      SourceRange.ofInts h.line h.column h.line (h.column + body.length + 4) = .ok range ∧
      ∀ colour, ∃ gutter before code marked after,
        Snippet.IsPartRow colour h.line front (opener ++ body ++ closer) back
          (Snippet.render .terminal content range colour) gutter before code marked after) ∧
    (scan content).Pairwise fun h h' => ∀ front body back, IsMarker content h front body back →
      h.line < h'.line ∨ h.line = h'.line ∧ h.column + body.length + 4 ≤ h'.column := by
  refine ⟨fun h hh => ?_, ?_⟩
  · obtain ⟨i, hi⟩ := List.mem_iff_getElem?.1 hh
    obtain ⟨m, -, -, -, front, back, hm⟩ := exists_marker_of_getElem? hi
    obtain ⟨range, hrange⟩ : ∃ range, SourceRange.ofInts h.line h.column h.line
        (h.column + m.2.2.length + 4) = .ok range := ⟨_, dif_pos (by omega)⟩
    exact ⟨front, m.2.2, back, range, hm, hrange, hm.exists_isPartRow hesc hrange⟩
  · refine List.pairwise_iff_getElem.2 fun i j hi hj hij front body back hbody => ?_
    obtain ⟨m, hm, hline, hcolumn, front', back', hmarker⟩ :=
      exists_marker_of_getElem? (List.getElem?_eq_getElem hi)
    obtain ⟨m', hm', hline', hcolumn', -⟩ := exists_marker_of_getElem? (List.getElem?_eq_getElem hj)
    obtain ⟨him, rfl⟩ := List.getElem?_eq_some_iff.1 hm
    obtain ⟨hjm, rfl⟩ := List.getElem?_eq_some_iff.1 hm'
    have hprecedes := List.pairwise_iff_getElem.1 (pairwise_markersOfLines 1 content.lines) i j him hjm hij
    obtain rfl := hbody.unique hmarker
    rw [hline, hcolumn, hline', hcolumn']
    exact hprecedes

/-- Two holes on one line, the first of which seems to open a second time. -/
def twoHoles : Text := "f = \x7b!\x7b!a!\x7d\x7b!!!\x7d".toList

theorem snippets_underline_markers_sample : '\x1b' ∉ twoHoles ∧
    (scan twoHoles).map (fun h => (h.line, h.column)) = [(1, 5), (1, 12)] ∧
    ∀ h ∈ scan twoHoles, ∃ front body back range, IsMarker twoHoles h front body back ∧
      SourceRange.ofInts h.line h.column h.line (h.column + body.length + 4) = .ok range ∧
      ∃ gutter before code marked after, Snippet.IsPartRow (.code "36m".toList) h.line front
        (opener ++ body ++ closer) back
        (Snippet.render .terminal twoHoles range (.code "36m".toList)) gutter before code marked after := by
  have hesc : '\x1b' ∉ twoHoles := by decide
  refine ⟨hesc, by decide +kernel, fun h hh => ?_⟩
  obtain ⟨front, body, back, range, hmarker, hrange, hrow⟩ :=
    (snippets_underline_markers hesc).1 h hh
  exact ⟨front, body, back, range, hmarker, hrange, hrow _⟩

end Hole

end AgdaFrontEnd
