import AgdaFrontEnd.Render.Style

/-!
# What a terminal shows

A terminal shows the characters of a text in the style that is in force, and an escape sequence that
ends in `m` changes the style.  Reading a text as a terminal does gives the characters with their
styles, and the style that is left in force.

* `Style`: how a character is shown; `Style.after` is the style after an escape sequence.
* `Cell`: a character with its style.
* `Text.shown`: the cells of a text, and the style after it.
* `Text.map_char_shown`: the characters that are shown are those of the text without its styles.
* `Text.cellsOf`, `Text.cellsBy`: the cells of plain text in one style, or in a style for each place.
* `Text.Shows`: what a text shows whatever stands after it; `Text.Shows.append` puts two such texts
  together.
* `Palette.shows_dim`, `Palette.shows_emphasis`, `Palette.shows_reset`: what the codes in use do.
-/

namespace AgdaFrontEnd

/-! ## Styles -/

/-- How a terminal shows a character.  A colour is known by the number that switches it on. -/
structure Style where
  bold : Bool := false
  dim : Bool := false
  underlined : Bool := false
  colour : Option Nat := none
  deriving DecidableEq, Repr

namespace Style

/-- The numbers that switch on a colour. -/
def isColour (n : Nat) : Bool := 30 ≤ n && n ≤ 37 || 90 ≤ n && n ≤ 97

/-- The style after one number of an escape sequence. -/
def apply (s : Style) : Nat → Style
  | 0 => {}
  | 1 => { s with bold := true }
  | 2 => { s with dim := true }
  | 4 => { s with underlined := true }
  | 22 => { s with bold := false, dim := false }
  | 24 => { s with underlined := false }
  | 39 => { s with colour := none }
  | n => if isColour n then { s with colour := some n } else s

/-- The style after one parameter; an empty one stands for zero, and one that is no number changes
nothing. -/
def applyParameter (s : Style) (parameter : Text) : Style :=
  if parameter.all Char.isDigit then s.apply (Nat.ofDigitChars 10 parameter 0) else s

/-- The style after an escape sequence with these parameters and this letter at its end. -/
def after (s : Style) (parameters : Text) (letter : Char) : Style :=
  if letter = 'm' then (parameters.splitOn ';').foldl applyParameter s else s

end Style

/-- The number that switches on a colour; a code may stand for anything. -/
def Colour.number? : Colour → Option Nat
  | .red => some 31
  | .green => some 32
  | .code _ => none

/-- The colour has a name. -/
def Colour.IsNamed (colour : Colour) : Prop := colour = .red ∨ colour = .green

/-- The style in which text in this style is emphasised in a colour. -/
def Style.emphasised (s : Style) (colour : Colour) : Style :=
  { s with underlined := true, colour := colour.number? }

/-- A character on the terminal. -/
structure Cell where
  char : Char
  style : Style
  deriving DecidableEq, Repr

namespace Text

/-! ## Reading -/

/-- The style after the escape sequence at the start of a text. -/
def styleAfter (s : Style) (t : Text) : Style :=
  s.after ((t.drop 2).takeWhile isParameter) (((t.drop 2).dropWhile isParameter).headD ' ')

/-- What the text after its first `skip` characters shows in a style: its cells, and the style after
it. -/
def shownFrom : (skip : Nat) → Style → Text → List Cell × Style
  | _, s, [] => ([], s)
  | skip + 1, s, _ :: r => shownFrom skip s r
  | 0, s, c :: r =>
    match sequenceLength? (c :: r) with
    | some n => shownFrom (n - 1) (styleAfter s (c :: r)) r
    | none => (⟨c, s⟩ :: (shownFrom 0 s r).1, (shownFrom 0 s r).2)

/-- What a text shows in a style: its cells, and the style after it. -/
def shown (s : Style) (t : Text) : List Cell × Style := shownFrom 0 s t

theorem map_char_shownFrom : ∀ (skip : Nat) (s : Style) (t : Text),
    (shownFrom skip s t).1.map Cell.char = stripFrom skip t
  | _, _, [] => by simp [shownFrom, stripFrom]
  | skip + 1, s, c :: r => by
    rw [shownFrom, stripFrom]
    exact map_char_shownFrom skip s r
  | 0, s, c :: r => by
    rw [shownFrom, stripFrom]
    cases sequenceLength? (c :: r) with
    | some n => exact map_char_shownFrom (n - 1) _ r
    | none => exact congrArg (c :: ·) (map_char_shownFrom 0 s r)

/-- The characters that a text shows are those of the text without its styles. -/
theorem map_char_shown (s : Style) (t : Text) : (shown s t).1.map Cell.char = stripStyles t :=
  map_char_shownFrom 0 s t

/-! ## Cells of plain text -/

/-- The cells of characters in one style. -/
def cellsOf (s : Style) (t : Text) : List Cell := t.map fun c => ⟨c, s⟩

/-- The cells of characters in a style that depends on their position. -/
def cellsBy (style : Nat → Style) (t : Text) : List Cell := t.mapIdx fun j c => ⟨c, style j⟩

section Cells

variable (s s' s'' : Style) (style : Nat → Style) (a b j : Nat) (t : Text)

theorem length_cellsOf : (cellsOf s t).length = t.length := List.length_map _

theorem length_cellsBy : (cellsBy style t).length = t.length := List.length_mapIdx

theorem getElem?_cellsOf : (cellsOf s t)[j]? = t[j]?.map fun c => ⟨c, s⟩ := List.getElem?_map

theorem getElem?_cellsBy : (cellsBy style t)[j]? = t[j]?.map fun c => ⟨c, style j⟩ :=
  List.getElem?_mapIdx

theorem map_char_cellsOf : (cellsOf s t).map Cell.char = t := by
  rw [cellsOf, List.map_map]
  exact List.map_id t

theorem map_char_cellsBy : (cellsBy style t).map Cell.char = t := by
  refine List.ext_getElem? fun j => ?_
  rw [List.getElem?_map, getElem?_cellsBy]
  cases t[j]? <;> rfl

theorem cellsOf_eq_cellsBy : cellsOf s t = cellsBy (fun _ => s) t := by
  refine List.ext_getElem? fun j => ?_
  rw [getElem?_cellsOf, getElem?_cellsBy]

/-- The cells of a text that changes its style at a position. -/
theorem cellsOf_cut : cellsOf s (t.take a) ++ cellsOf s' (t.drop a) =
    cellsBy (fun j => if j < a then s else s') t := by
  refine List.ext_getElem? fun j => ?_
  rw [List.getElem?_append, length_cellsOf, List.length_take, getElem?_cellsOf, getElem?_cellsOf,
    getElem?_cellsBy]
  by_cases hj : j < a <;> grind

/-- The cells of a text that changes its style at two positions. -/
theorem cellsOf_cut_twice (hab : a ≤ b) :
    cellsOf s (t.take a) ++ cellsOf s' ((t.take b).drop a) ++ cellsOf s'' (t.drop b) =
      cellsBy (fun j => if j < a then s else if j < b then s' else s'') t := by
  have hcut := cellsOf_cut s s' a (t.take b)
  rw [List.take_take, Nat.min_eq_left hab] at hcut
  rw [hcut]
  refine List.ext_getElem? fun j => ?_
  rw [List.getElem?_append, length_cellsBy, List.length_take, getElem?_cellsBy, getElem?_cellsOf,
    getElem?_cellsBy]
  by_cases hj : j < b <;> grind

end Cells

/-! ## What a text shows by itself -/

/-- In the style `s` the text shows the cells and leaves the style `s'`, whatever stands after it. -/
def Shows (s : Style) (t : Text) (cells : List Cell) (s' : Style) : Prop :=
  ∀ u, shown s (t ++ u) = (cells ++ (shown s' u).1, (shown s' u).2)

section Shows

variable {s s' s'' : Style} {t u : Text} {cells cells' : List Cell}

theorem Shows.shown_eq (h : Shows s t cells s') : shown s t = (cells, s') := by
  have hnil := h []
  rwa [List.append_nil, show shown s' [] = ([], s') from rfl, List.append_nil] at hnil

theorem Shows.append (h : Shows s t cells s') (h' : Shows s' u cells' s'') :
    Shows s (t ++ u) (cells ++ cells') s'' := by
  intro v
  rw [List.append_assoc, h, h']
  simp

theorem shows_nil (s : Style) : Shows s [] [] s := fun _ => rfl

/-- Texts one after another that leave the style as it is. -/
theorem shows_flatten {ts : List Text} (h : ∀ t ∈ ts, ∃ cells, Shows s t cells s) :
    Shows s ts.flatten (ts.map fun t => (shown s t).1).flatten s := by
  induction ts with
  | nil => exact shows_nil s
  | cons t ts ih =>
    obtain ⟨cells, ht⟩ := h t (.head _)
    rw [List.flatten_cons, List.map_cons, List.flatten_cons, ht.shown_eq]
    exact ht.append (ih fun t' ht' => h t' (.tail _ ht'))

theorem sequenceLength?_of_ne {c : Char} (h : c ≠ '\x1b') (r : Text) :
    sequenceLength? (c :: r) = none := by
  unfold sequenceLength?
  split
  · rename_i heq
    exact absurd (List.cons.inj heq).1 h
  · rfl

/-- A text without escape characters is shown as it is. -/
theorem shows_of_not_mem (s : Style) (h : '\x1b' ∉ t) : Shows s t (cellsOf s t) s := by
  intro u
  induction t with
  | nil => rfl
  | cons c t ih =>
    rw [List.mem_cons, not_or] at h
    have hc := sequenceLength?_of_ne (Ne.symm h.1) (t ++ u)
    have ih' : shownFrom 0 s (t ++ u) = (cellsOf s t ++ (shown s u).1, (shown s u).2) := ih h.2
    rw [shown, List.cons_append, shownFrom, hc]
    dsimp only
    rw [ih']
    rfl

/-! ## Escape sequences -/

theorem not_isParameter_of_isFinal {c : Char} (h : isFinal c = true) : isParameter c = false := by
  simp only [isFinal, Bool.or_eq_true, Bool.and_eq_true, decide_eq_true_eq, Char.le_def,
    UInt32.le_iff_toNat_le] at h
  simp only [isParameter, Bool.or_eq_false_iff, Bool.and_eq_false_iff, decide_eq_false_iff_not,
    Char.le_def, UInt32.le_iff_toNat_le, Char.ext_iff, ← UInt32.toNat_inj]
  have h0 : ('0'.val.toNat, '9'.val.toNat, ';'.val.toNat, '?'.val.toNat) = (48, 57, 59, 63) := rfl
  have h1 : ('A'.val.toNat, 'Z'.val.toNat, 'a'.val.toNat, 'z'.val.toNat) = (65, 90, 97, 122) := rfl
  simp only [Prod.mk.injEq] at h0 h1
  omega

variable {parameters : Text} {letter : Char}

theorem sequenceLength?_sequence (hp : ∀ c ∈ parameters, isParameter c = true)
    (hl : isFinal letter = true) (u : Text) :
    sequenceLength? ('\x1b' :: '[' :: (parameters ++ letter :: u)) = some (parameters.length + 3) := by
  have hn := not_isParameter_of_isFinal hl
  have hdrop : (parameters ++ letter :: u).dropWhile isParameter = letter :: u := by
    rw [List.dropWhile_append_of_pos hp, List.dropWhile_cons_of_neg (by simp [hn])]
  have htake : (parameters ++ letter :: u).takeWhile isParameter = parameters := by
    rw [List.takeWhile_append_of_pos hp, List.takeWhile_cons_of_neg (by simp [hn]), List.append_nil]
  simp only [sequenceLength?]
  rw [hdrop, htake]
  simp [hl]

theorem styleAfter_sequence (hp : ∀ c ∈ parameters, isParameter c = true)
    (hl : isFinal letter = true) (s : Style) (u : Text) :
    styleAfter s ('\x1b' :: '[' :: (parameters ++ letter :: u)) = s.after parameters letter := by
  have hn := not_isParameter_of_isFinal hl
  unfold styleAfter
  rw [List.drop_succ_cons, List.drop_succ_cons, List.drop_zero, List.dropWhile_append_of_pos hp,
    List.dropWhile_cons_of_neg (by simp [hn]), List.takeWhile_append_of_pos hp,
    List.takeWhile_cons_of_neg (by simp [hn]), List.append_nil]
  rfl

theorem shownFrom_length (s : Style) (t u : Text) : shownFrom t.length s (t ++ u) = shown s u := by
  induction t with
  | nil => rfl
  | cons c t ih => exact ih

/-- An escape sequence shows nothing and changes the style. -/
theorem shows_sequence (s : Style) (parameters : Text) (letter : Char)
    (hp : ∀ c ∈ parameters, isParameter c = true) (hl : isFinal letter = true) :
    Shows s ('\x1b' :: '[' :: (parameters ++ [letter])) [] (s.after parameters letter) := by
  intro u
  have hlength : ('[' :: (parameters ++ [letter])).length = parameters.length + 3 - 1 := by simp
  have hskip := shownFrom_length (s.after parameters letter) ('[' :: (parameters ++ [letter])) u
  rw [hlength, List.cons_append, List.append_assoc, List.singleton_append] at hskip
  rw [shown, List.cons_append, List.cons_append, List.append_assoc, List.singleton_append, shownFrom,
    sequenceLength?_sequence hp hl, styleAfter_sequence hp hl]
  exact hskip

end Shows

end Text

/-! ## The codes in use -/

namespace Palette

theorem shows_dim (s : Style) : Text.Shows s terminal.dim [] { s with dim := true } :=
  Text.shows_sequence s ['2'] 'm' (by simp [Text.isParameter]) rfl

theorem shows_underline (s : Style) :
    Text.Shows s terminal.underline [] { s with underlined := true } :=
  Text.shows_sequence s ['4'] 'm' (by simp [Text.isParameter]) rfl

theorem shows_reset (s : Style) : Text.Shows s terminal.reset [] {} :=
  Text.shows_sequence s ['0'] 'm' (by simp [Text.isParameter]) rfl

theorem shows_colour {colour : Colour} (h : colour.IsNamed) (s : Style) :
    Text.Shows s (terminal.colour colour) [] { s with colour := colour.number? } := by
  rcases h with rfl | rfl
  · exact Text.shows_sequence s ['3', '1'] 'm' (by simp [Text.isParameter]) rfl
  · exact Text.shows_sequence s ['3', '2'] 'm' (by simp [Text.isParameter]) rfl

theorem shows_emphasis {colour : Colour} (h : colour.IsNamed) (s : Style) :
    Text.Shows s (terminal.colour colour ++ terminal.underline) [] (s.emphasised colour) :=
  (shows_colour h s).append (shows_underline _)

end Palette

end AgdaFrontEnd
