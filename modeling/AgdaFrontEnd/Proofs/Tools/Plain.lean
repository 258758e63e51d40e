import AgdaFrontEnd.Proofs.Render.Stripping
import AgdaFrontEnd.Proofs.Tools

/-!
# Answers without colour

An answer without colour is stripped of its escape sequences only as far as it comes from a report;
the result of an evaluation and the wording of a failure are answered as they are.

* `Tools.Page`: what a request has to show, and `Page.shown` how it is shown.
* `Tools.Request.page`: what a request comes to; `Tools.run_perform` is the run of a request.
* `Tools.Request.LeavesSequence`: what a request comes to has a sequence that is not taken away.
* `Tools.sequences_left`: the texts that hold a sequence once they are stripped, and the answers
  without colour that hold one.
* `Tools.sequences_remain`: a text and two answers that hold one.
-/

namespace AgdaFrontEnd.Tools

/-! ## Pages -/

/-- What a request has to show. -/
inductive Page where
  /-- The report of a file without errors. -/
  | passed (body : Text)
  /-- The report of a file with errors. -/
  | failed (body : Text)
  /-- The report on the files below a directory. -/
  | listing (body : Text)
  /-- The result of an evaluation. -/
  | result (t : Text)
  deriving DecidableEq, Repr

namespace Page

/-- How a page is shown: its body is stripped unless colour is wanted. -/
def shown (color : Bool) : Page → Text
  | .passed body => "OK\n\n".toList ++ plain body color
  | .failed body => "FAILED\n\n".toList ++ plain body color
  | .listing body => plain body color
  | .result t => t

/-- The page of a check. -/
def ofCheck (r : Report) : Page := if r.failed then .failed r.text else .passed r.text

/-- The page of an evaluation. -/
def ofRun (r : Report) : Page := if r.failed then .failed r.text else .result (shownResult r)

/-- The page of the checks below a directory. -/
def ofBatch (r : BatchReport) : Page := .listing (r.text .terminal)

/-- The page has a sequence that stripping its body does not take away. -/
def LeavesSequence : Page → Prop
  | .passed body => body.HasBrokenSequence
  | .failed body => body.HasBrokenSequence
  | .listing body => body.HasBrokenSequence
  | .result t => t.HasSequence

theorem shown_ofCheck (color : Bool) (r : Report) : (ofCheck r).shown color = shownCheck color r := by
  unfold ofCheck shownCheck
  split <;> rfl

theorem shown_ofRun (color : Bool) (r : Report) : (ofRun r).shown color = shownRun color r := by
  unfold ofRun shownRun
  split <;> rfl

theorem shown_ofBatch (color : Bool) (r : BatchReport) :
    (ofBatch r).shown color = plain (r.text .terminal) color := rfl

instance : (p : Page) → Decidable p.LeavesSequence
  | .passed body => inferInstanceAs (Decidable body.HasBrokenSequence)
  | .failed body => inferInstanceAs (Decidable body.HasBrokenSequence)
  | .listing body => inferInstanceAs (Decidable body.HasBrokenSequence)
  | .result t => inferInstanceAs (Decidable t.HasSequence)

theorem hasSequence_shown_iff (p : Page) : (p.shown false).HasSequence ↔ p.LeavesSequence := by
  cases p with
  | passed body =>
    exact (Text.hasSequence_append_of_not_mem (by decide) _).trans Text.hasSequence_stripStyles_iff
  | failed body =>
    exact (Text.hasSequence_append_of_not_mem (by decide) _).trans Text.hasSequence_stripStyles_iff
  | listing body => exact Text.hasSequence_stripStyles_iff
  | result t => exact Iff.rfl

end Page

/-! ## Requests -/

namespace Request

/-- The answer may be coloured. -/
def color : Request → Bool
  | .check _ _ color => color
  | .run _ color => color
  | .checkAll _ color => color

/-- What a request comes to: a page, or a failure. -/
def page (w : World) : Request → Except Failure Page
  | .check file textDialect _ => (checked (quietMode textDialect false) w file).map .ofCheck
  | .run file _ => (checked (quietMode false true) w file).map .ofRun
  | .checkAll directory _ => (loaded w directory).map .ofBatch

/-- What the request comes to has a sequence that is not taken away. -/
def LeavesSequence (w : World) (q : Request) : Prop :=
  match q.page w with
  | .ok p => p.LeavesSequence
  | .error f => f.message.HasSequence

end Request

theorem map_shown {α : Type} {of : α → Page} {color : Bool} {shown : α → Text}
    (h : ∀ x, (of x).shown color = shown x) (r : Except Failure α) :
    r.map shown = (r.map of).map (Page.shown color) := by
  cases r with
  | error f => rfl
  | ok x => exact congrArg Except.ok (h x).symm

/-- A request shows the page that it comes to, or tells the failure. -/
theorem run_perform (q : Request) (w : World) :
    ∃ w', q.perform.run w = (answerOf ((q.page w).map (Page.shown q.color)), w') := by
  cases q with
  | check file textDialect color =>
    obtain ⟨w', h⟩ := run_file (quietMode textDialect false) (shownCheck color) w file
    rw [map_shown (Page.shown_ofCheck color)] at h
    exact ⟨w', h⟩
  | run file color =>
    obtain ⟨w', h⟩ := run_file (quietMode false true) (shownRun color) w file
    rw [map_shown (Page.shown_ofRun color)] at h
    exact ⟨w', h⟩
  | checkAll directory color =>
    obtain ⟨w', h⟩ := run_directory w directory color
    rw [map_shown (Page.shown_ofBatch color)] at h
    exact ⟨w', h⟩

theorem hasSequence_errorAnswer_iff (f : Failure) :
    (errorAnswer f).HasSequence ↔ f.message.HasSequence :=
  Text.hasSequence_append_of_not_mem (by decide) _

/-- The answers without colour that hold a sequence. -/
theorem Request.hasSequence_answer_iff {q : Request} {w : World} {a : Text}
    (hq : q.color = false) (h : (q.perform.run w).1 = .ok a) :
    a.HasSequence ↔ q.LeavesSequence w := by
  obtain ⟨w', hrun⟩ := run_perform q w
  rw [hrun, hq] at h
  unfold LeavesSequence
  rcases answerOf_eq_ok_iff.1 h with ⟨p, hp, rfl⟩ | ⟨f, hf, -, rfl⟩
  · rw [hp]
    exact p.hasSequence_shown_iff
  · rw [hf]
    exact hasSequence_errorAnswer_iff f

/-- **Where a sequence is left.**  A text holds one once it is stripped, and changes when it is
stripped again, if the characters of a sequence have others between them.  An answer without colour
holds one if the report does so once it is stripped, or if the result or the failure has one. -/
theorem sequences_left (t : Text) (q : Request) (w : World) :
    (t.stripStyles.HasSequence ↔ t.HasBrokenSequence) ∧
    (t.stripStyles.stripStyles = t.stripStyles ↔ ¬ t.HasBrokenSequence) ∧
    ∀ a, q.color = false → (q.perform.run w).1 = .ok a → (a.HasSequence ↔ q.LeavesSequence w) := by
  refine ⟨Text.hasSequence_stripStyles_iff, ?_, fun _ hq h => Request.hasSequence_answer_iff hq h⟩
  rw [Text.stripStyles_eq_self_iff, Text.hasSequence_stripStyles_iff]

/-- The prover writes to its error output in red, and ends with the code 1. -/
def redWorld : World where
  disk := { entries := [([], .directory), (["a.agda".toList], .file [])] }
  script := { rules := [{ stderr := [Utf8.encode "\x1b[31mboom".toList], exitCode := 1 }] }

/-- What a check answers then. -/
def redAnswer : Text := "ERROR: Agda process exited with code 1\n\x1b[31mboom".toList

/-- The check that this is an answer to. -/
def redRequest : Request := .check "a.agda".toList false false

/-- A check without colour is answered in red: what the prover wrote is not stripped. -/
theorem sequences_left_red :
    (redRequest.perform.run redWorld).1 = .ok redAnswer ∧
    (redAnswer.HasSequence ↔ redRequest.LeavesSequence redWorld) := by
  have hanswer : (redRequest.perform.run redWorld).1 = .ok redAnswer := by decide +kernel
  exact ⟨hanswer, (sequences_left redAnswer redRequest redWorld).2.2 redAnswer rfl hanswer⟩

/-- A file has a sequence in its name, and another one in the midst of it. -/
def brokenNameWorld : World where
  disk := { entries := [([], .directory), (["\x1b[\x1b[mm.agda".toList], .file [])] }

/-- Texts that hold a sequence although they were to be stripped: a broken sequence, the name of a
file that is listed, and what a failed prover wrote. -/
theorem sequences_remain :
    Text.stripStyles "\x1b[\x1b[mm".toList = "\x1b[m".toList ∧
    Text.HasSequence "\x1b[m".toList ∧
    ((Request.checkAll ".".toList false).perform.run brokenNameWorld).1 =
      .ok "✓ \x1b[m.agda\nAll files checked!".toList ∧
    (redRequest.perform.run redWorld).1 = .ok redAnswer ∧ redAnswer.HasSequence := by
  decide +kernel

end AgdaFrontEnd.Tools
