import AgdaFrontEnd.Response.Unit
import AgdaFrontEnd.Proofs.Response.Reading

/-!
# Reading units line by line

Parsing an output scans the lines of an open unit from its start again whenever a line is added.  The
same units come from reading every line once, where all that is carried over a line end is the
directive of the open unit and what a reader of quoted fields carries.

* `InfoAction.Unfinished`: what is carried over a line end.
* `InfoAction.step`, `InfoAction.stream`: reading a line, and reading lines.
* `InfoAction.parseLines_cons`: one more line, scanned from the start of the unit or read once.
* `InfoAction.parse_eq_stream`: parsing an output gives the units that reading its lines gives.
-/

namespace AgdaFrontEnd.InfoAction

open Quoted (Reading)

/-! ## Reading lines once -/

/-- A unit that has been opened and is not closed yet. -/
structure Unfinished where
  directive : Text
  reading : Reading
  deriving DecidableEq, Repr

/-- The open unit once a line has been read: the line may open one, or it goes on with the open one
behind a line feed. -/
def Unfinished.read? : Option Unfinished → Text → Option Unfinished
  | none, line => (opening? line).map fun (d, r) => ⟨d, Reading.start.after ('(' :: r)⟩
  | some u, line => some ⟨u.directive, u.reading.after ('\n' :: line)⟩

/-- At the end of a line a unit is finished if no string and no parenthesis is open. -/
def Unfinished.settle (u : Unfinished) : Option Unfinished × List InfoAction :=
  if u.reading.IsClosed then (none, [⟨u.directive, u.reading.fields⟩]) else (some u, [])

/-- Reads a line: the unit that is open after it, and the unit that it finishes. -/
def step (u : Option Unfinished) (line : Text) : Option Unfinished × List InfoAction :=
  match Unfinished.read? u line with
  | none => (none, [])
  | some u => u.settle

/-- Reads lines: the unit that is open after them, and the units that they finish. -/
def stream : Option Unfinished → List Text → Option Unfinished × List InfoAction
  | u, [] => (u, [])
  | u, l :: ls => ((stream (step u l).1 ls).1, (step u l).2 ++ (stream (step u l).1 ls).2)

theorem stream_append (u : Option Unfinished) (ls ls' : List Text) :
    stream u (ls ++ ls') =
      ((stream (stream u ls).1 ls').1, (stream u ls).2 ++ (stream (stream u ls).1 ls').2) := by
  induction ls generalizing u with
  | nil => rfl
  | cons l ls ih => simp [stream, ih]

/-! ## Scanning again and reading once -/

/-- What has been read of a unit whose lines so far are these. -/
def Unfinished.ofText : Text × Text → Unfinished
  | (d, t) => ⟨d, Reading.start.after ('(' :: t)⟩

/-- What becomes of a unit at the end of a line depends on the scan of its lines alone. -/
theorem Unfinished.exists_settle_ofText (d t : Text) : ∃ s : Option (Text × Text),
    (Unfinished.ofText (d, t)).settle.1 = s.map Unfinished.ofText ∧
      ∀ ls, (if (Quoted.scan ('(' :: t)).complete then
          ⟨d, (Quoted.scan ('(' :: t)).fields⟩ :: parseLines none ls
        else parseLines (some (d, t)) ls) = (Unfinished.ofText (d, t)).settle.2 ++ parseLines s ls := by
  rw [Quoted.scan_eq]
  by_cases hc : (Reading.start.after ('(' :: t)).IsClosed
  · exact ⟨none, by simp [settle, ofText, hc], fun ls => by simp [settle, ofText, hc]⟩
  · exact ⟨some (d, t), by simp [settle, ofText, hc], fun ls => by simp [settle, ofText, hc]⟩

/-- The text of an open unit with one more line, read from its start or from where it ended. -/
theorem Unfinished.read?_ofText (d t l : Text) : Unfinished.read? (some (Unfinished.ofText (d, t))) l =
    some (Unfinished.ofText (d, t ++ '\n' :: l)) := by
  simp [read?, ofText, ← Reading.after_append]

/-- **One more line.**  Scanning the unit from its start again comes to what reading the line does. -/
theorem parseLines_cons (s : Option (Text × Text)) (l : Text) : ∃ s' : Option (Text × Text),
    (step (s.map Unfinished.ofText) l).1 = s'.map Unfinished.ofText ∧
      ∀ ls, parseLines s (l :: ls) = (step (s.map Unfinished.ofText) l).2 ++ parseLines s' ls := by
  cases s with
  | none =>
    cases ho : opening? l with
    | none =>
      have hstep : step none l = (none, []) := by simp [step, Unfinished.read?, ho]
      refine ⟨none, by rw [Option.map_none, hstep], fun ls => ?_⟩
      rw [Option.map_none, hstep, parseLines, ho]
      rfl
    | some unit =>
      obtain ⟨d, r⟩ := unit
      obtain ⟨s', hs, hls⟩ := Unfinished.exists_settle_ofText d r
      have hstep : step none l = (Unfinished.ofText (d, r)).settle := by
        simp [step, Unfinished.read?, ho, Unfinished.ofText]
      refine ⟨s', by rw [Option.map_none, hstep, hs], fun ls => ?_⟩
      rw [Option.map_none, hstep, ← hls, parseLines, ho]
  | some unit =>
    obtain ⟨d, t⟩ := unit
    obtain ⟨s', hs, hls⟩ := Unfinished.exists_settle_ofText d (t ++ '\n' :: l)
    have hstep : step (some (Unfinished.ofText (d, t))) l =
        (Unfinished.ofText (d, t ++ '\n' :: l)).settle := by
      rw [step, Unfinished.read?_ofText]
    refine ⟨s', by rw [Option.map_some, hstep, hs], fun ls => ?_⟩
    rw [Option.map_some, hstep, ← hls, parseLines]

/-- Lines that are scanned again and again give the units that reading them once gives. -/
theorem parseLines_eq_stream (s : Option (Text × Text)) (ls : List Text) :
    parseLines s ls = (stream (s.map Unfinished.ofText) ls).2 := by
  induction ls generalizing s with
  | nil => cases s <;> rfl
  | cons l ls ih =>
    obtain ⟨s', hs, hls⟩ := parseLines_cons s l
    rw [hls, ih, stream, hs]

/-- **Parsing an output gives the units that reading its lines once gives.**  A unit that is open at
the end is left out of both. -/
theorem parse_eq_stream (output : Text) : parse output = (stream none output.lines).2 :=
  parseLines_eq_stream none output.lines

end AgdaFrontEnd.InfoAction
