import AgdaFrontEnd.Proofs.Render.Mismatch
import AgdaFrontEnd.Proofs.Render.Snippet
import AgdaFrontEnd.Proofs.Render.Stripping
import AgdaFrontEnd.Proofs.Text.Margins
import Mathlib.Data.List.Forall2

/-!
# Texts written in two palettes

What is written in the codes of a terminal and what is written in none differ by the codes alone, which
stripping takes away, whatever stands around them.  This is proved of any two palettes of which the
codes of the one are those of the other with styles.

* `Text.Unstyles`: stripping takes the styles of a text away wherever it stands.
* `Text.Unstyles.append`, `Text.unstyles_unlines`: texts that are put together.
* `Palette.Unstyles`: the relation between palettes; `Palette.terminal_unstyles` is the case of a
  terminal.
* `Snippet.unstyles_render`, `Message.rel_short?`: snippets and short forms of messages.
-/

namespace AgdaFrontEnd

namespace Text

/-! ## Texts and their styles -/

/-- Stripping takes the styles of `t` away and leaves `u`, whatever stands behind: no sequence that
starts in `t` reaches over its end. -/
def Unstyles (t u : Text) : Prop := ∀ r, (t ++ r).stripStyles = u ++ r.stripStyles

variable {t t' u u' : Text}

theorem Unstyles.stripStyles_eq (h : Unstyles t u) : t.stripStyles = u := by
  have hnil := h []
  rw [List.append_nil] at hnil
  exact hnil.trans (List.append_nil u)

theorem unstyles_nil : Unstyles [] [] := fun _ => rfl

theorem Unstyles.append (h : Unstyles t u) (h' : Unstyles t' u') : Unstyles (t ++ t') (u ++ u') := by
  intro r
  rw [List.append_assoc, h, h', List.append_assoc]

/-- A text without escape characters is left as it is. -/
theorem unstyles_of_not_mem (h : '\x1b' ∉ t) : Unstyles t t := by
  intro r
  rw [← map_char_shown {}, shows_of_not_mem {} h r, List.map_append, map_char_cellsOf, map_char_shown]

theorem unstyles_newline : Unstyles ['\n'] ['\n'] := unstyles_of_not_mem (by decide)

/-- Of an escape sequence nothing is left. -/
theorem IsSequence.unstyles (h : IsSequence t) : Unstyles t [] := stripStyles_sequence h

theorem unstyles_unlines {ts us : List Text} (h : List.Forall₂ Unstyles ts us) :
    Unstyles (unlines ts) (unlines us) := by
  induction h with
  | nil => exact unstyles_nil
  | cons hl h ih =>
    cases h with
    | nil => simpa [unlines] using hl
    | cons _ _ =>
      rw [unlines_cons_cons, unlines_cons_cons, ← List.singleton_append, ← List.singleton_append]
      exact hl.append (unstyles_newline.append ih)

end Text

open Text

/-! ## Palettes -/

/-- The codes of `p` are those of `q` with styles. -/
structure Palette.Unstyles (p q : Palette) : Prop where
  bold : Text.Unstyles p.bold q.bold
  dim : Text.Unstyles p.dim q.dim
  underline : Text.Unstyles p.underline q.underline
  red : Text.Unstyles p.red q.red
  green : Text.Unstyles p.green q.green
  reset : Text.Unstyles p.reset q.reset

/-- **The codes of a terminal are styles alone.** -/
theorem Palette.terminal_unstyles : terminal.Unstyles plain where
  bold := IsSequence.unstyles ⟨['1'], 'm', by simp [isParameter], rfl, rfl⟩
  dim := IsSequence.unstyles ⟨['2'], 'm', by simp [isParameter], rfl, rfl⟩
  underline := IsSequence.unstyles ⟨['4'], 'm', by simp [isParameter], rfl, rfl⟩
  red := IsSequence.unstyles ⟨['3', '1'], 'm', by simp [isParameter], rfl, rfl⟩
  green := IsSequence.unstyles ⟨['3', '2'], 'm', by simp [isParameter], rfl, rfl⟩
  reset := IsSequence.unstyles ⟨['0'], 'm', by simp [isParameter], rfl, rfl⟩

section Palettes

variable {p q : Palette} (h : p.Unstyles q)

include h

theorem Palette.Unstyles.colour {colour : Colour} (hc : colour.IsNamed) :
    Text.Unstyles (p.colour colour) (q.colour colour) := by
  rcases hc with rfl | rfl
  · exact h.red
  · exact h.green

theorem Palette.Unstyles.coloured {colour : Colour} (hc : colour.IsNamed) {t : Text}
    (ht : '\x1b' ∉ t) : Text.Unstyles (p.coloured colour t) (q.coloured colour t) :=
  ((h.colour hc).append (unstyles_of_not_mem ht)).append h.reset

/-- A title in bold. -/
theorem Palette.Unstyles.title {t : Text} (ht : '\x1b' ∉ t) :
    Text.Unstyles (p.bold ++ t ++ p.reset) (q.bold ++ t ++ q.reset) :=
  (h.bold.append (unstyles_of_not_mem ht)).append h.reset

/-! ## Snippets -/

namespace Snippet

variable {colour : Colour} (hc : colour.IsNamed) (range : SourceRange)

theorem unstyles_gutter (width : Nat) (number : Int) :
    Unstyles (gutter p width number) (gutter q width number) := by
  have htext := unstyles_of_not_mem (not_mem_gutterText (c := '\x1b') (.head _) width number)
  simpa [gutter, gutterText] using (h.dim.append htext).append h.reset

include hc

/-- A line of the range, whichever line of it this is. -/
theorem unstyles_marked (number : Int) {line : Text} (hl : '\x1b' ∉ line) :
    Unstyles (marked ⟨p, colour, range⟩ number line) (marked ⟨q, colour, range⟩ number line) := by
  have hemphasis := (h.colour hc).append h.underline
  have hbefore := fun n => unstyles_of_not_mem (not_mem_before n hl)
  have hafter := fun n => unstyles_of_not_mem (not_mem_after n hl)
  have hbetween := fun n n' => unstyles_of_not_mem (not_mem_between n n' hl)
  unfold marked
  split
  · exact ((((((h.dim.append (hbefore _)).append hemphasis).append (hbetween _ _)).append h.reset).append
      h.dim).append (hafter _)).append h.reset
  split
  · exact (((h.dim.append (hbefore _)).append hemphasis).append (hafter _)).append h.reset
  split
  · exact ((((hemphasis.append (hbefore _)).append h.reset).append h.dim).append (hafter _)).append
      h.reset
  · exact (hemphasis.append (unstyles_of_not_mem hl)).append h.reset

theorem unstyles_rows (number : Int) {ls : List Text} (hls : ∀ l ∈ ls, '\x1b' ∉ l) :
    Unstyles (rows ⟨p, colour, range⟩ number ls) (rows ⟨q, colour, range⟩ number ls) := by
  induction ls generalizing number with
  | nil => exact unstyles_nil
  | cons l ls ih =>
    obtain ⟨hl, hls⟩ := List.forall_mem_cons.1 hls
    have hrow := ((unstyles_gutter h (ofInt range.endLine).length number).append
      (unstyles_marked h hc range number hl)).append unstyles_newline
    exact hrow.append (ih (number + 1) hls)

/-- **The snippet of any range**, whether it lies in the source or not. -/
theorem unstyles_render {content : Text} (hcontent : '\x1b' ∉ content) :
    Unstyles (render p content range colour) (render q content range colour) := by
  unfold render
  dsimp only
  split
  · exact unstyles_of_not_mem hcontent
  · refine unstyles_rows h hc range _ fun l hl hm => hcontent ?_
    exact (mem_of_mem_lines (List.mem_of_mem_take (List.mem_of_mem_drop hl)) hm).1

end Snippet

/-! ## Messages -/

namespace Message

omit h in
/-- The name that a message says is not in scope stands in it. -/
theorem infix_of_unbound? {message name : Text} (hname : unbound? message = some name) :
    name <:+: message := by
  induction message with
  | nil => cases hname
  | cons c t ih =>
    rw [unbound?] at hname
    split at hname
    · rename_i name' hfound
      cases hname
      obtain ⟨rest, hwords, hrest⟩ := Option.bind_eq_some_iff.1 hfound
      dsimp only at hrest
      split at hrest
      · cases hrest
      · obtain ⟨-, -, rfl⟩ := Option.map_eq_some_iff.1 hrest
        rw [eq_append_of_dropPrefix? hwords]
        exact (List.takeWhile_prefix _).isInfix.trans ((List.dropWhile_suffix _).isInfix.trans
          (List.suffix_append _ rest).isInfix)
    · exact (ih hname).trans (List.suffix_cons c t).isInfix

omit h in
/-- The characters of both sides of a mismatch are those of the message. -/
theorem mem_of_mismatch? {message detected expected : Text}
    (hsides : mismatch? message = some (detected, expected)) {c : Char}
    (hc : c ∈ detected ∨ c ∈ expected) : c ∈ message := by
  obtain ⟨line, i, r, ⟨before, after, hlines, -⟩, hi, hsides⟩ := mismatch?_eq_some_iff.1 hsides
  cases hsides
  obtain ⟨sign, -, hdrop⟩ := hi.signAt.drop_eq
  have hline : c ∈ line := by
    rcases hc with hc | hc
    · exact List.mem_of_mem_take ((strip_isInfix _).subset hc)
    · refine List.mem_of_mem_drop (i := i) ?_
      rw [hdrop]
      exact List.mem_append_right sign ((strip_isInfix r).subset hc)
  exact (mem_of_mem_lines (by simp [hlines]) hline).1

theorem unstyles_fileLine {path : Text} (hpath : '\x1b' ∉ path) :
    Unstyles (fileLine p path) (fileLine q path) :=
  ((h.dim.append h.underline).append (unstyles_of_not_mem hpath)).append h.reset

variable {message : Text} (hmessage : '\x1b' ∉ message)

include hmessage

omit h in
theorem not_mem_upTo (c : Char) : '\x1b' ∉ message.upTo c :=
  fun hm => hmessage ((List.takeWhile_prefix _).subset hm)

theorem rel_shortMismatch? :
    Option.Rel Unstyles (shortMismatch? p message) (shortMismatch? q message) := by
  unfold shortMismatch?
  cases hsides : mismatch? message with
  | none => exact .none
  | some sides =>
    obtain ⟨detected, expected⟩ := sides
    have hdetected : '\x1b' ∉ detected := fun hm => hmessage (mem_of_mismatch? hsides (.inl hm))
    have hexpected : '\x1b' ∉ expected := fun hm => hmessage (mem_of_mismatch? hsides (.inr hm))
    have hfile := unstyles_fileLine h (not_mem_upTo (not_mem_upTo hmessage '\n') ':')
    have htitle := h.title (t := "TypeMismatch:".toList) (by decide)
    have hsides := unstyles_of_not_mem (t := "\n- expected: ".toList ++ expected ++
      "\n- detected: ".toList ++ detected ++ ['\n']) (by simp [hdetected, hexpected])
    refine .some ?_
    simpa [Location.fileOf] using (htitle.append hsides).append hfile

theorem rel_shortUnbound? :
    Option.Rel Unstyles (shortUnbound? p message) (shortUnbound? q message) := by
  unfold shortUnbound?
  cases hname : unbound? message with
  | none => exact .none
  | some name =>
    have hname : '\x1b' ∉ name := fun hm => hmessage ((infix_of_unbound? hname).subset hm)
    have hfile := unstyles_fileLine h (not_mem_upTo hmessage ':')
    have htitle := h.title (t := "Unbound:".toList) (by decide)
    have hquoted := unstyles_of_not_mem (t := " '".toList ++ name ++ "'\n".toList) (by simp [hname])
    refine .some ?_
    simpa [Location.fileOf] using (htitle.append hquoted).append hfile

/-- **The short forms of a message**: there are both or none. -/
theorem rel_short? : Option.Rel Unstyles (short? p message) (short? q message) := by
  have hmismatch := rel_shortMismatch? h hmessage
  unfold short?
  generalize shortMismatch? p message = t, shortMismatch? q message = u at hmismatch
  cases hmismatch with
  | none => exact rel_shortUnbound? h hmessage
  | some ht => exact .some ht

end Message

end Palettes

end AgdaFrontEnd
