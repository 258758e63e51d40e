import AgdaFrontEnd.Proofs.Response.Reading
import Mathlib.Tactic.SplitIfs

/-!
# Strings and what stands outside them

A text is cut into the characters outside strings, the strings that are closed, and an open string at its
end if there is one.  Every text has just one such cut, and a scan of the text gives the strings in it.

* `Quoted.Decomposition`: a text in parts, with its fields and its open parentheses.
* `Quoted.Decomposition.Step`: what one more character does to a decomposition.
* `Quoted.Decomposition.isOnlyOf_of`: every text has just one decomposition.
* `Quoted.Decomposition.parts_after`, `Decomposition.of_append`: longer texts, and texts behind each other.
* `Quoted.scan_eq_decomposition`: a scan gives the fields of the decomposition, and whether it is closed.
-/

namespace AgdaFrontEnd.Quoted

/-! ## Decompositions -/

/-- A character as it stands inside a string: as it is, or behind a backslash. -/
inductive Letter where
  | plain (c : Char) (hb : c ≠ '\\') (hq : c ≠ '"')
  | escaped (c : Char)
  deriving DecidableEq, Repr

namespace Letter

def text : Letter → Text
  | plain c _ _ => [c]
  | escaped c => ['\\', c]

/-- The character that is meant. -/
def meaning : Letter → Char
  | plain c _ _ => c
  | escaped c => unescape c

end Letter

/-- A part of a text: a character outside strings, or a string with both of its quotes. -/
inductive Part where
  | bare (c : Char) (hq : c ≠ '"')
  | string (letters : List Letter)
  deriving DecidableEq, Repr

namespace Part

def text : Part → Text
  | bare c _ => [c]
  | string ls => '"' :: (ls.flatMap Letter.text ++ ['"'])

/-- The field that the part gives. -/
def field? : Part → Option Text
  | bare _ _ => none
  | string ls => some (ls.map Letter.meaning)

/-- The character that the part is, if it is one. -/
def char? : Part → Option Char
  | bare c _ => some c
  | string _ => none

end Part

/-- What follows the last part of a text. -/
inductive Tail where
  | nothing
  /-- A string without its second quote. -/
  | string (letters : List Letter)
  /-- The same, and a backslash with nothing behind it. -/
  | escape (letters : List Letter)
  deriving DecidableEq, Repr

namespace Tail

def text : Tail → Text
  | nothing => []
  | string ls => '"' :: ls.flatMap Letter.text
  | escape ls => '"' :: (ls.flatMap Letter.text ++ ['\\'])

/-- Where a reader stands behind it. -/
def place : Tail → Place
  | nothing => .outside
  | string ls => .inside (ls.map Letter.meaning)
  | escape ls => .escaped (ls.map Letter.meaning)

end Tail

/-- A text in parts. -/
structure Decomposition where
  parts : List Part
  tail : Tail
  deriving DecidableEq, Repr

namespace Decomposition

/-- The parts put together. -/
def text (d : Decomposition) : Text := d.parts.flatMap Part.text ++ d.tail.text

theorem text_of_nothing {d : Decomposition} (h : d.tail = .nothing) :
    d.text = d.parts.flatMap Part.text := by
  rw [text, h, Tail.text, List.append_nil]

/-- The fields of the closed strings. -/
def fields (d : Decomposition) : List Text := d.parts.filterMap Part.field?

/-- What stands outside strings. -/
def outer (d : Decomposition) : Text := d.parts.filterMap Part.char?

/-- The number of parentheses that are open, counted outside strings. -/
def depth (d : Decomposition) : Int := (d.outer.count '(' : Int) - d.outer.count ')'

/-! ## The decomposition of a text -/

/-- One more character: it is read into the tail, or it ends the tail and makes a part of it. -/
def push (d : Decomposition) (c : Char) : Decomposition :=
  match d.tail with
  | .nothing => if hq : c = '"' then ⟨d.parts, .string []⟩ else ⟨d.parts ++ [.bare c hq], .nothing⟩
  | .string ls =>
    if hb : c = '\\' then ⟨d.parts, .escape ls⟩
    else if hq : c = '"' then ⟨d.parts ++ [.string ls], .nothing⟩
    else ⟨d.parts, .string (ls ++ [.plain c hb hq])⟩
  | .escape ls => ⟨d.parts, .string (ls ++ [.escaped c])⟩

/-- What one more character does to a decomposition. -/
inductive Step : Decomposition → Char → Decomposition → Prop where
  | opens (ps : List Part) : Step ⟨ps, .nothing⟩ '"' ⟨ps, .string []⟩
  | bare (ps : List Part) (c : Char) (hq : c ≠ '"') :
    Step ⟨ps, .nothing⟩ c ⟨ps ++ [.bare c hq], .nothing⟩
  | backslash (ps : List Part) (ls : List Letter) : Step ⟨ps, .string ls⟩ '\\' ⟨ps, .escape ls⟩
  | closes (ps : List Part) (ls : List Letter) :
    Step ⟨ps, .string ls⟩ '"' ⟨ps ++ [.string ls], .nothing⟩
  | plain (ps : List Part) (ls : List Letter) (c : Char) (hb : c ≠ '\\') (hq : c ≠ '"') :
    Step ⟨ps, .string ls⟩ c ⟨ps, .string (ls ++ [.plain c hb hq])⟩
  | escaped (ps : List Part) (ls : List Letter) (c : Char) :
    Step ⟨ps, .escape ls⟩ c ⟨ps, .string (ls ++ [.escaped c])⟩

theorem step_push (d : Decomposition) (c : Char) : Step d c (d.push c) := by
  obtain ⟨parts, tail⟩ := d
  cases tail with
  | nothing =>
    by_cases hq : c = '"'
    · subst hq
      exact .opens parts
    · simpa [push, hq] using Step.bare parts c hq
  | string ls =>
    by_cases hb : c = '\\'
    · subst hb
      exact .backslash parts ls
    · by_cases hq : c = '"'
      · subst hq
        exact .closes parts ls
      · simpa [push, hb, hq] using Step.plain parts ls c hb hq
  | escape ls => exact .escaped parts ls c

/-- More characters. -/
def after (d : Decomposition) (t : Text) : Decomposition := t.foldl push d

/-- The decomposition of a text. -/
def of (t : Text) : Decomposition := after ⟨[], .nothing⟩ t

theorem after_cons (d : Decomposition) (c : Char) (t : Text) : d.after (c :: t) = (d.push c).after t := rfl

theorem after_append (d : Decomposition) (t u : Text) : d.after (t ++ u) = (d.after t).after u :=
  List.foldl_append

theorem of_append_singleton (t : Text) (c : Char) : of (t ++ [c]) = (of t).push c :=
  after_append ⟨[], .nothing⟩ t [c]

theorem Step.text_eq {d d' : Decomposition} {c : Char} (h : Step d c d') : d'.text = d.text ++ [c] := by
  cases h with
  | opens ps => simp [text, Tail.text]
  | bare ps c hq => simp [text, Tail.text, Part.text]
  | backslash ps ls => simp [text, Tail.text]
  | closes ps ls => simp [text, Tail.text, Part.text]
  | plain ps ls c hb hq => simp [text, Tail.text, Letter.text]
  | escaped ps ls c => simp [text, Tail.text, Letter.text]

theorem text_after (d : Decomposition) (t : Text) : (d.after t).text = d.text ++ t := by
  induction t generalizing d with
  | nil => simp [after]
  | cons c t ih => rw [after_cons, ih, (step_push d c).text_eq, List.append_assoc, List.singleton_append]

/-- The parts found in a text make it up again. -/
theorem text_of (t : Text) : (of t).text = t := text_after ⟨[], .nothing⟩ t

variable {ps : List Part}

theorem after_letter (ls : List Letter) (l : Letter) :
    after ⟨ps, .string ls⟩ l.text = ⟨ps, .string (ls ++ [l])⟩ := by
  cases l with
  | plain c hb hq => simp [after, Letter.text, push, hb, hq]
  | escaped c => simp [after, Letter.text, push]

theorem after_letters (ls ls' : List Letter) :
    after ⟨ps, .string ls⟩ (ls'.flatMap Letter.text) = ⟨ps, .string (ls ++ ls')⟩ := by
  induction ls' generalizing ls with
  | nil => simp [after]
  | cons l ls' ih =>
    rw [List.flatMap_cons, after_append, after_letter, ih]
    simp

theorem after_part (p : Part) : after ⟨ps, .nothing⟩ p.text = ⟨ps ++ [p], .nothing⟩ := by
  cases p with
  | bare c hq => simp [after, Part.text, push, hq]
  | string ls =>
    have hopen : push ⟨ps, .nothing⟩ '"' = ⟨ps, .string []⟩ := rfl
    have hclose : after ⟨ps, .string ls⟩ ['"'] = ⟨ps ++ [.string ls], .nothing⟩ := rfl
    rw [Part.text, after_cons, hopen, after_append, after_letters, List.nil_append, hclose]

theorem after_parts (ps' : List Part) :
    after ⟨ps, .nothing⟩ (ps'.flatMap Part.text) = ⟨ps ++ ps', .nothing⟩ := by
  induction ps' generalizing ps with
  | nil => simp [after]
  | cons p ps' ih =>
    rw [List.flatMap_cons, after_append, after_part, ih]
    simp

theorem after_tail (tail : Tail) : after ⟨ps, .nothing⟩ tail.text = ⟨ps, tail⟩ := by
  have hopen : push ⟨ps, .nothing⟩ '"' = ⟨ps, .string []⟩ := rfl
  cases tail with
  | nothing => rfl
  | string ls => rw [Tail.text, after_cons, hopen, after_letters, List.nil_append]
  | escape ls =>
    have hcut : after ⟨ps, .string ls⟩ ['\\'] = ⟨ps, .escape ls⟩ := rfl
    rw [Tail.text, after_cons, hopen, after_append, after_letters, List.nil_append, hcut]

/-- The decomposition is found again in its text. -/
theorem of_text (d : Decomposition) : of d.text = d := by
  rw [of, text, after_append, after_parts, after_tail, List.nil_append]

/-- The text has this decomposition and no other. -/
def IsOnlyOf (d : Decomposition) (t : Text) : Prop :=
  d.text = t ∧ ∀ d' : Decomposition, d'.text = t → d' = d

/-- **Every text has just one decomposition.** -/
theorem isOnlyOf_of (t : Text) : (of t).IsOnlyOf t := by
  refine ⟨text_of t, fun d' h => ?_⟩
  rw [← of_text d', h]

/-! ## Scanning and decomposing -/

/-- What a character outside strings adds to the number of open parentheses. -/
def weight (c : Char) : Int := if c = '(' then 1 else if c = ')' then -1 else 0

theorem weight_eq (c : Char) : weight c = ([c].count '(' : Int) - [c].count ')' := by
  unfold weight
  split_ifs with ho hc
  · subst ho
    rfl
  · subst hc
    rfl
  · simp [ho, hc]

/-- A character counts if it stands outside strings. -/
theorem Step.depth_eq {d d' : Decomposition} {c : Char} (h : Step d c d') :
    d'.depth = d.depth + if d.tail = .nothing then weight c else 0 := by
  cases h with
  | opens ps => simp [depth, outer, weight]
  | bare ps c hq =>
    have houter : outer ⟨ps ++ [.bare c hq], .nothing⟩ = outer ⟨ps, .nothing⟩ ++ [c] := by
      simp [outer, Part.char?]
    rw [if_pos rfl, weight_eq, depth, depth, houter, List.count_append, List.count_append]
    omega
  | backslash ps ls => simp [depth, outer]
  | closes ps ls => simp [depth, outer, List.filterMap_cons, Part.char?]
  | plain ps ls c hb hq => simp [depth, outer]
  | escaped ps ls c => simp [depth, outer]

/-- What a reader carries behind the text. -/
def reading (d : Decomposition) : Reading := ⟨d.fields, d.tail.place, d.depth⟩

/-- Reading a character and adding it to the decomposition come to the same. -/
theorem Step.reading_eq {d d' : Decomposition} {c : Char} (h : Step d c d') :
    d'.reading = d.reading.next c := by
  cases h with
  | opens ps => rfl
  | bare ps c hq =>
    have hfields : fields ⟨ps ++ [.bare c hq], .nothing⟩ = fields ⟨ps, .nothing⟩ := by
      simp [fields, Part.field?]
    rw [reading, reading, hfields, (Step.bare ps c hq).depth_eq, if_pos rfl, Tail.place, Reading.next,
      weight]
    split_ifs <;> simp [Int.sub_eq_add_neg]
  | backslash ps ls => rfl
  | closes ps ls =>
    simp [reading, Reading.next, Tail.place, fields, depth, outer, List.filterMap_cons, Part.field?,
      Part.char?]
  | plain ps ls c hb hq =>
    simp [reading, Reading.next, Tail.place, fields, depth, outer, Letter.meaning, hb, hq]
  | escaped ps ls c => simp [reading, Reading.next, Tail.place, fields, depth, outer, Letter.meaning]

theorem reading_after (d : Decomposition) (t : Text) : (d.after t).reading = d.reading.after t := by
  induction t generalizing d with
  | nil => rfl
  | cons c t ih => rw [after_cons, ih, (step_push d c).reading_eq, Reading.after_cons]

theorem reading_of (t : Text) : (of t).reading = Reading.start.after t := reading_after ⟨[], .nothing⟩ t

theorem place_eq_outside_iff {tail : Tail} : tail.place = .outside ↔ tail = .nothing := by
  cases tail <;> simp [Tail.place]

/-! ## More text -/

theorem Step.keeps_parts {d d' : Decomposition} {c : Char} (h : Step d c d') : d.parts <+: d'.parts := by
  cases h <;> simp

/-- The parts of a text are the first parts of every longer text. -/
theorem parts_after (d : Decomposition) (t : Text) : d.parts <+: (d.after t).parts := by
  induction t generalizing d with
  | nil => exact List.prefix_rfl
  | cons c t ih => exact (step_push d c).keeps_parts.trans (ih (d.push c))

/-- Behind a text that ends outside strings, another text has the parts that it has by itself. -/
theorem of_append {a : Text} (h : (of a).tail = .nothing) (b : Text) :
    of (a ++ b) = ⟨(of a).parts ++ (of b).parts, (of b).tail⟩ := by
  have ha : (of a).parts.flatMap Part.text = a := by rw [← text_of_nothing h, text_of]
  have hb : (of b).parts.flatMap Part.text ++ (of b).tail.text = b := text_of b
  -- What is on the right makes up the whole text, and that has no other decomposition.
  rw [← of_text ⟨(of a).parts ++ (of b).parts, (of b).tail⟩, text, List.flatMap_append,
    List.append_assoc, ha, hb]

end Decomposition

/-- **A scan gives the fields of the decomposition**; it is complete if the text ends outside strings with
no parenthesis open. -/
theorem scan_eq_decomposition (t : Text) : scan t = ⟨(Decomposition.of t).fields,
    decide ((Decomposition.of t).tail = .nothing ∧ (Decomposition.of t).depth ≤ 0)⟩ := by
  rw [scan_eq, ← Decomposition.reading_of]
  simp [Decomposition.reading, Reading.IsClosed, Decomposition.place_eq_outside_iff]

/-- A text that is cut behind a backslash has the backslash in its tail, not in its letters. -/
example : (Decomposition.of "x\"a\\".toList).tail = .escape [.plain 'a' (by decide) (by decide)] := by
  decide

end AgdaFrontEnd.Quoted
