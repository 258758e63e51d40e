import AgdaFrontEnd.Hole
import AgdaFrontEnd.Proofs.Text.Occurrence
import Mathlib.Data.List.Forall2

/-!
# Markers and the gaps between them

A line is cut into markers, the gaps before them and a rest.  Every line has just one such cut, and
scanning a text lists the markers of its lines as they stand there.

* `Hole.Decomposition`: a line in parts; `Decomposition.IsOf` says which line it is, and that no
  marker is left in a part.
* `Hole.exists_isOf`, `Hole.Decomposition.IsOf.unique`: every line has just one decomposition.
* `Hole.markersFrom_eq`: scanning a line gives the markers of its decomposition.
* `Hole.holesOf`: the holes of decomposed lines, by their places.
* `Hole.scan_eq_holesOf`: scanning a text gives the holes of its decomposed lines.
-/

namespace AgdaFrontEnd.Hole

/-! ## Decompositions -/

/-- What opens a marker. -/
def opener : Text := ['{', '!']

/-- What closes a marker. -/
def closer : Text := ['!', '}']

/-- A marker with the gap before it. -/
structure Piece where
  gap : Text
  body : Text
  deriving DecidableEq, Repr

/-- The gap and the marker as they stand in the line. -/
def Piece.text (p : Piece) : Text := p.gap ++ opener ++ p.body ++ closer

/-- A line in parts: its markers with the gaps before them, and what follows the last one. -/
structure Decomposition where
  pieces : List Piece
  rest : Text
  deriving DecidableEq, Repr

/-- No marker starts in the text: nothing that opens one is followed by what closes it. -/
def HasNoMarker (t : Text) : Prop := ∀ r, opener ++ r <:+ t → ¬ closer <:+: r

namespace Decomposition

/-- The parts put together. -/
def text (d : Decomposition) : Text := d.pieces.flatMap Piece.text ++ d.rest

/-- The parts make up the line.  A gap opens no marker, a body does not hold what closes it, and no
marker is left in the rest. -/
structure IsOf (d : Decomposition) (line : Text) : Prop where
  text_eq : d.text = line
  gaps : ∀ p ∈ d.pieces, ¬ opener <:+: p.gap
  bodies : ∀ p ∈ d.pieces, ¬ closer <:+: p.body
  rest : HasNoMarker d.rest

/-- The line has this decomposition and no other. -/
def IsOnlyOf (d : Decomposition) (line : Text) : Prop :=
  d.IsOf line ∧ ∀ d' : Decomposition, d'.IsOf line → d' = d

/-- What stands before the marker of a piece that has the first `i` pieces before it. -/
def before (d : Decomposition) (i : Nat) (p : Piece) : Text :=
  (d.pieces.take i).flatMap Piece.text ++ p.gap

variable {p : Piece} {ps : List Piece} {rest line : Text}

theorem isOf_nil : IsOf ⟨[], rest⟩ line ↔ rest = line ∧ HasNoMarker line := by
  constructor
  · rintro ⟨h, -, -, hrest⟩
    obtain rfl : rest = line := h
    exact ⟨rfl, hrest⟩
  · rintro ⟨rfl, h⟩
    exact ⟨rfl, by simp, by simp, h⟩

theorem isOf_cons : IsOf ⟨p :: ps, rest⟩ line ↔ ¬ opener <:+: p.gap ∧ ¬ closer <:+: p.body ∧
    ∃ l, line = p.gap ++ '{' :: '!' :: (p.body ++ '!' :: '}' :: l) ∧ IsOf ⟨ps, rest⟩ l := by
  constructor
  · rintro ⟨h, hg, hb, hrest⟩
    refine ⟨hg p (.head _), hb p (.head _), text ⟨ps, rest⟩, ?_, rfl, fun q hq => hg q (.tail _ hq),
      fun q hq => hb q (.tail _ hq), hrest⟩
    simp [← h, text, Piece.text, opener, closer]
  · rintro ⟨hg, hb, l, rfl, h, hgs, hbs, hrest⟩
    refine ⟨?_, by simpa using ⟨hg, hgs⟩, by simpa using ⟨hb, hbs⟩, hrest⟩
    simp [← h, text, Piece.text, opener, closer]

theorem not_hasNoMarker {g b l : Text} : ¬ HasNoMarker (g ++ '{' :: '!' :: (b ++ '!' :: '}' :: l)) :=
  fun h => h (b ++ '!' :: '}' :: l) ⟨g, by simp [opener]⟩ ⟨b, l, by simp [closer]⟩

/-- **A line has at most one decomposition.** -/
theorem IsOf.unique {d d' : Decomposition} (h : d.IsOf line) (h' : d'.IsOf line) : d = d' := by
  obtain ⟨ps, rest⟩ := d
  obtain ⟨ps', rest'⟩ := d'
  induction ps generalizing ps' line with
  | nil =>
    obtain ⟨rfl, hno⟩ := isOf_nil.1 h
    cases ps' with
    | nil => rw [(isOf_nil.1 h').1]
    | cons p' ps' =>
      obtain ⟨-, -, l, rfl, -⟩ := isOf_cons.1 h'
      exact absurd hno not_hasNoMarker
  | cons p ps ih =>
    obtain ⟨hg, hb, l, rfl, hl⟩ := isOf_cons.1 h
    cases ps' with
    | nil => exact absurd (isOf_nil.1 h').2 not_hasNoMarker
    | cons p' ps' =>
      obtain ⟨hg', hb', l', heq, hl'⟩ := isOf_cons.1 h'
      obtain ⟨hgap, heq⟩ := Text.append_pair_inj (by decide) hg hg' heq
      obtain ⟨hbody, rfl⟩ := Text.append_pair_inj (by decide) hb hb' heq
      obtain ⟨rfl, rfl⟩ := Decomposition.mk.inj (ih hl ps' hl')
      obtain ⟨g, b⟩ := p
      obtain rfl : g = p'.gap := hgap
      obtain rfl : b = p'.body := hbody
      rfl

end Decomposition

open Decomposition

/-- A text whose first opening is not closed holds no marker. -/
theorem hasNoMarker_of_first {g r : Text} (hg : ¬ opener <:+: g) (hr : ¬ closer <:+: r) :
    HasNoMarker (g ++ '{' :: '!' :: r) := by
  rintro s ⟨g', h⟩ hs
  rcases Text.append_pair_cases (by decide) hg h.symm with ⟨-, rfl⟩ | ⟨x, -, rfl⟩
  · exact hr hs
  · exact hr (hs.trans ⟨x ++ ['{', '!'], [], by simp⟩)

/-- **Every line has a decomposition.** -/
theorem exists_isOf (line : Text) : ∃ d : Decomposition, d.IsOf line := by
  by_cases ho : opener <:+: line
  · obtain ⟨g, r, hline, hg⟩ := Text.exists_first_pair ho
    by_cases hc : closer <:+: r
    · obtain ⟨b, l, hr, hb⟩ := Text.exists_first_pair hc
      have hlt : l.length < line.length := by
        rw [hline, hr]
        simp only [List.length_append, List.length_cons]
        omega
      obtain ⟨⟨ps, rest⟩, hd⟩ := exists_isOf l
      exact ⟨⟨⟨g, b⟩ :: ps, rest⟩, isOf_cons.2 ⟨hg, hb, l, by rw [hline, hr], hd⟩⟩
    · exact ⟨⟨[], line⟩, isOf_nil.2 ⟨rfl, hline ▸ hasNoMarker_of_first hg hc⟩⟩
  · refine ⟨⟨[], line⟩, isOf_nil.2 ⟨rfl, fun r hr => absurd ?_ ho⟩⟩
    exact (List.prefix_append opener r).isInfix.trans hr.isInfix
termination_by line.length
decreasing_by exact hlt

/-! ## Scanning a line -/

/-- A character that opens no marker is passed over. -/
theorem markersFrom_skip {c : Char} {r : Text} (h : ∀ s, c :: r ≠ '{' :: '!' :: s) (column : Nat) :
    markersFrom column (c :: r) = markersFrom (column + 1) r := by
  rw [markersFrom]
  exact fun s hc hr => h s (by rw [hc, hr])

theorem bodyFrom_skip {c : Char} {r : Text} (h : ∀ s, c :: r ≠ '!' :: '}' :: s)
    (opened : Nat) (body : Text) (column : Nat) :
    bodyFrom opened body column (c :: r) = bodyFrom opened (c :: body) (column + 1) r := by
  rw [bodyFrom]
  exact fun s hc hr => h s (by rw [hc, hr])

/-- The gap before a marker is passed over. -/
theorem markersFrom_gap {g : Text} (hg : ¬ opener <:+: g) (column : Nat) (r : Text) :
    markersFrom column (g ++ '{' :: '!' :: r) =
      bodyFrom (column + g.length) [] (column + g.length + 2) r := by
  induction g generalizing column with
  | nil => rw [List.nil_append, markersFrom]; rfl
  | cons c g ih =>
    have htail : ¬ opener <:+: g := fun h => hg (List.infix_cons h)
    rw [List.cons_append, markersFrom_skip (Text.cons_append_pair_ne (by decide) hg), ih htail,
      List.length_cons, Nat.add_assoc, Nat.add_comm 1]

/-- The body of a marker is read up to what closes it. -/
theorem bodyFrom_body {b : Text} (hb : ¬ closer <:+: b) (opened : Nat) (read : Text) (column : Nat)
    (r : Text) : bodyFrom opened read column (b ++ '!' :: '}' :: r) =
      (opened, read.reverse ++ b) :: markersFrom (column + b.length + 2) r := by
  induction b generalizing read column with
  | nil => rw [List.nil_append, bodyFrom, List.append_nil]; rfl
  | cons c b ih =>
    have htail : ¬ closer <:+: b := fun h => hb (List.infix_cons h)
    rw [List.cons_append, bodyFrom_skip (Text.cons_append_pair_ne (by decide) hb), ih htail,
      List.length_cons, List.reverse_cons, List.append_assoc, List.singleton_append,
      Nat.add_assoc column, Nat.add_comm 1]

/-- A marker that is not closed is none. -/
theorem bodyFrom_eq_nil {t : Text} (ht : ¬ closer <:+: t) (opened : Nat) (read : Text) (column : Nat) :
    bodyFrom opened read column t = [] := by
  induction t generalizing read column with
  | nil => rw [bodyFrom]
  | cons c t ih =>
    have hskip : ∀ s, c :: t ≠ '!' :: '}' :: s := fun s h => ht ⟨[], s, by rw [h]; rfl⟩
    rw [bodyFrom_skip hskip, ih fun h => ht (List.infix_cons h)]

theorem markersFrom_eq_nil {t : Text} (ht : HasNoMarker t) (column : Nat) :
    markersFrom column t = [] := by
  induction t generalizing column with
  | nil => rw [markersFrom]
  | cons c t ih =>
    have htail : HasNoMarker t := fun r hr => ht r (hr.trans (List.suffix_cons c t))
    by_cases ho : opener <+: c :: t
    · obtain ⟨r, hr⟩ := ho
      have hopen : '{' :: '!' :: r = c :: t := hr
      rw [← hopen, markersFrom, bodyFrom_eq_nil (ht r (hr ▸ List.suffix_refl _))]
    · rw [markersFrom_skip fun s h => ho ⟨s, h.symm⟩, ih htail]

namespace Decomposition

/-- The columns and the bodies of the markers: before a marker stands all that precedes it in the
line. -/
def marks (d : Decomposition) (column : Nat) : List (Nat × Text) :=
  d.pieces.mapIdx fun i p => (column + (d.before i p).length, p.body)

theorem marks_cons (p : Piece) (ps : List Piece) (rest : Text) (column : Nat) :
    marks ⟨p :: ps, rest⟩ column =
      (column + p.gap.length, p.body) :: marks ⟨ps, rest⟩ (column + p.text.length) := by
  rw [marks, List.mapIdx_cons]
  refine congrArg₂ List.cons (by simp [before]) (List.mapIdx_eq_mapIdx_iff.2 fun i hi => ?_)
  simp [before, Nat.add_assoc]

/-- **Scanning a line gives the markers of its decomposition.** -/
theorem markersFrom_eq {d : Decomposition} {line : Text} (h : d.IsOf line) (column : Nat) :
    markersFrom column line = d.marks column := by
  obtain ⟨ps, rest⟩ := d
  induction ps generalizing line column with
  | nil => exact markersFrom_eq_nil (isOf_nil.1 h).2 column
  | cons p ps ih =>
    obtain ⟨hg, hb, l, rfl, hl⟩ := isOf_cons.1 h
    have hwidth : p.text.length = p.gap.length + 2 + p.body.length + 2 := by
      simp only [Piece.text, opener, closer, List.length_append, List.length_cons, List.length_nil]
    rw [markersFrom_gap hg, bodyFrom_body hb, ih _ hl, marks_cons, hwidth]
    simp [Nat.add_assoc]

end Decomposition

/-! ## Scanning a text -/

/-- The markers of decomposed lines: for each its line, its column and its body. -/
def placesOf (line : Nat) (ds : List Decomposition) : List (Nat × Nat × Text) :=
  (ds.mapIdx fun k d => (d.marks 1).map fun m => (line + k, m)).flatten

/-- The holes of decomposed lines.  They are numbered in the order of the markers, from zero; the hint
is the body without the blanks around it, and a question mark stands for an empty one. -/
def holesOf (ds : List Decomposition) : List Hole :=
  (placesOf 1 ds).mapIdx fun id (line, column, body) =>
    ⟨id, line, column, if body.strip = [] then ['?'] else body.strip⟩

theorem number_eq_mapIdx (id : Nat) (ms : List (Nat × Nat × Text)) :
    number id ms = ms.mapIdx fun i (line, column, body) => ⟨id + i, line, column, hintOf body⟩ := by
  induction ms generalizing id with
  | nil => rfl
  | cons m ms ih =>
    rw [number, ih, List.mapIdx_cons]
    refine congrArg₂ List.cons rfl (List.mapIdx_eq_mapIdx_iff.2 fun i hi => ?_)
    rw [Nat.add_assoc, Nat.add_comm 1]

theorem markersOfLines_eq {ds : List Decomposition} {ls : List Text}
    (h : List.Forall₂ Decomposition.IsOf ds ls) (line : Nat) :
    markersOfLines line ls = placesOf line ds := by
  induction h generalizing line with
  | nil => rfl
  | @cons d l ds ls hd _ ih =>
    rw [markersOfLines, ih, markers, markersFrom_eq hd, placesOf, placesOf, List.mapIdx_cons,
      List.flatten_cons]
    refine congrArg₂ List.append rfl (congrArg List.flatten (List.mapIdx_eq_mapIdx_iff.2 fun i hi => ?_))
    rw [Nat.add_assoc, Nat.add_comm 1]

/-- Scanning a text gives the holes of its decomposed lines. -/
theorem scan_eq_holesOf {content : Text} {ds : List Decomposition}
    (h : List.Forall₂ Decomposition.IsOf ds content.lines) : scan content = holesOf ds := by
  rw [scan, markersOfLines_eq h, number_eq_mapIdx, holesOf]
  refine List.mapIdx_eq_mapIdx_iff.2 fun i hi => ?_
  simp [hintOf]

theorem exists_isOnlyOf (ls : List Text) :
    ∃ ds : List Decomposition, List.Forall₂ Decomposition.IsOnlyOf ds ls := by
  induction ls with
  | nil => exact ⟨[], .nil⟩
  | cons l ls ih =>
    obtain ⟨d, hd⟩ := exists_isOf l
    obtain ⟨ds, hds⟩ := ih
    exact ⟨d :: ds, .cons ⟨hd, fun d' hd' => hd'.unique hd⟩ hds⟩

/-- **Scanning a text finds the markers of its lines.**  Every line has just one decomposition, and
the holes are the markers of all of them, line by line and from left to right. -/
theorem scan_decomposes (content : Text) : ∃ ds : List Decomposition,
    List.Forall₂ Decomposition.IsOnlyOf ds content.lines ∧ scan content = holesOf ds := by
  obtain ⟨ds, hds⟩ := exists_isOnlyOf content.lines
  exact ⟨ds, hds, scan_eq_holesOf (hds.imp fun _ _ h => h.1)⟩

/-- A brace before a marker, a marker that seems to close at once, and one that stays open. -/
example : scan "\x7b\x7b!\x7da!\x7d\x7b!!!\x7d\n\x7b! b !\x7d \x7b!".toList =
    [⟨0, 1, 2, "\x7da".toList⟩, ⟨1, 1, 8, "!".toList⟩, ⟨2, 2, 1, "b".toList⟩] := by
  decide +kernel

end AgdaFrontEnd.Hole
