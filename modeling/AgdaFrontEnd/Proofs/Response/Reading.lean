import AgdaFrontEnd.Proofs.Response.Quoted

/-!
# Reading quoted fields character by character

A scan looks at a text as a whole.  A reader takes it one character at a time and carries what it has
found: the finished fields, the open string with a backslash that still waits for its character, and
the number of open parentheses.

* `Quoted.Reading`: what a reader carries; `Reading.next` and `Reading.after` read on.
* `Quoted.Reading.total_after`: reading a part of a text and scanning the rest scans the whole text.
* `Quoted.scan_eq`: a scan gives what a reader has found at the end of the text.
-/

namespace AgdaFrontEnd.Quoted

/-- Where a reader stands. -/
inductive Place where
  | outside
  /-- In a string of which `field` has been read. -/
  | inside (field : Text)
  /-- The same, behind a backslash. -/
  | escaped (field : Text)
  deriving DecidableEq, Repr

/-- What a reader carries. -/
structure Reading where
  fields : List Text
  place : Place
  depth : Int
  deriving DecidableEq, Repr

namespace Reading

/-- Nothing has been read. -/
def start : Reading := ⟨[], .outside, 0⟩

/-- Reads a character. -/
def next (s : Reading) (c : Char) : Reading :=
  match s.place with
  | .outside =>
    if c = '"' then { s with place := .inside [] }
    else if c = '(' then { s with depth := s.depth + 1 }
    else if c = ')' then { s with depth := s.depth - 1 }
    else s
  | .inside field =>
    if c = '\\' then { s with place := .escaped field }
    else if c = '"' then { s with fields := s.fields ++ [field], place := .outside }
    else { s with place := .inside (field ++ [c]) }
  | .escaped field => { s with place := .inside (field ++ [unescape c]) }

/-- Reads a text. -/
def after (s : Reading) (t : Text) : Reading := t.foldl next s

/-- No string is open, and no parenthesis. -/
def IsClosed (s : Reading) : Prop := s.place = .outside ∧ s.depth ≤ 0

instance (s : Reading) : Decidable s.IsClosed := inferInstanceAs (Decidable (_ ∧ _))

theorem after_cons (s : Reading) (c : Char) (t : Text) : s.after (c :: t) = (s.next c).after t := rfl

theorem after_append (s : Reading) (t u : Text) : s.after (t ++ u) = (s.after t).after u :=
  List.foldl_append

/-! ## Reading and scanning -/

/-- What scanning a text gives that goes on where a reader stands.  A backslash that waits for its
character stands in front of the text again. -/
def rest (s : Reading) (t : Text) : Scan :=
  match s.place with
  | .outside => Quoted.outside s.depth t
  | .inside field => Quoted.inside s.depth field.reverse t
  | .escaped field => Quoted.inside s.depth field.reverse ('\\' :: t)

/-- The fields that have been read, and those that a scan of the text behind them gives. -/
def total (s : Reading) (t : Text) : Scan := ⟨s.fields ++ (s.rest t).fields, (s.rest t).complete⟩

/-- A character may be read before the rest is scanned. -/
theorem total_next (s : Reading) (c : Char) (t : Text) : s.total (c :: t) = (s.next c).total t := by
  obtain ⟨fields, place, depth⟩ := s
  cases place with
  | outside =>
    by_cases hq : c = '"'
    · simp [total, rest, next, Quoted.outside, hq]
    · by_cases ho : c = '('
      · simp [total, rest, next, Quoted.outside, ho]
      · by_cases hc : c = ')'
        · simp [total, rest, next, Quoted.outside, hc]
        · simp [total, rest, next, Quoted.outside, hq, ho, hc]
  | inside field =>
    by_cases hb : c = '\\'
    · subst hb
      rfl
    · by_cases hq : c = '"'
      · subst hq
        simp [total, rest, next, inside_quote, Scan.cons]
      · simp [total, rest, next, hb, hq, inside_other hb hq]
  | escaped field => simp [total, rest, next, inside_backslash]

theorem total_after (s : Reading) (t u : Text) : s.total (t ++ u) = (s.after t).total u := by
  induction t generalizing s with
  | nil => rfl
  | cons c t ih => rw [List.cons_append, total_next, ih, after_cons]

theorem total_nil (s : Reading) : s.total [] = ⟨s.fields, decide s.IsClosed⟩ := by
  obtain ⟨fields, place, depth⟩ := s
  cases place <;> simp [total, rest, IsClosed, Quoted.outside, Quoted.inside]

end Reading

/-- **A scan gives what a reader has found** at the end of the text. -/
theorem scan_eq (t : Text) :
    scan t = ⟨(Reading.start.after t).fields, decide (Reading.start.after t).IsClosed⟩ := by
  have h := Reading.total_after .start t []
  rw [List.append_nil, Reading.total_nil] at h
  exact h

end AgdaFrontEnd.Quoted
