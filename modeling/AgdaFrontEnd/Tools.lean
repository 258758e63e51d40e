import AgdaFrontEnd.Batch

/-!
# Tools

The tools of the server check a file, evaluate its entry point, or check all files below a
directory.  Each answers with a text; a failure of the prover or of an argument is an answer too.

* `Tools.check`, `Tools.run`, `Tools.checkAll`: the tools.
-/

namespace AgdaFrontEnd.Tools

/-- The text with its styles if they are wanted. -/
def plain (t : Text) (color : Bool) : Text := if color then t else t.stripStyles

/-- A checker with a session of its own. -/
def checkerFor (prover : Option Text) (mode : Mode) : Checker :=
  ⟨some (Session.new prover none mode.dialect mode.quiet), .idle⟩

/-- Does the work of a checker. -/
def atDesk (c : Checker) (a : Desk α) : Act α := ExceptT.mk fun w =>
  let ((r, _), w) := a.run c w
  (r, w)

/-- Checks the file that an argument names, with a new session. -/
def checkFile (prover : Option Text) (file : Option Text) (mode : Mode) : Act Report := do
  let path ← sourceArgument file
  atDesk (checkerFor prover mode) (Checker.check path mode)

/-- Turns the failures that are reported into answers. -/
def answering (a : Act Text) : Act Text := ExceptT.mk fun w =>
  match a.run w with
  | (.error failure, w) =>
    if failure.isReported then (.ok ("ERROR: ".toList ++ failure.message), w)
    else (.error failure, w)
  | r => r

/-- The mode of the tools. -/
def quietMode (textDialect : Bool) (evaluate : Bool) : Mode where
  quiet := true
  interactive := false
  evaluate := evaluate
  dialect := if textDialect then .text else .json

/-- The answer for a failed check. -/
def failedAnswer (r : Report) (color : Bool) : Text := "FAILED\n\n".toList ++ plain r.text color

/-- Checks a file: its goals, its errors, or a word that it has neither. -/
def check (file : Text) (textDialect : Bool) (color : Bool) : Act Text := answering do
  let r ← checkFile none (some file) (quietMode textDialect false)
  return if r.failed then failedAnswer r color else "OK\n\n".toList ++ plain r.text color

/-- What a result shows; an empty one shows that there was no output. -/
def shownResult (r : Report) : Text :=
  match r.result with
  | some (c :: t) => c :: t
  | _ => noOutput

/-- Evaluates the entry point of a file: its normal form, or the errors of the file. -/
def run (file : Text) (color : Bool) : Act Text := answering do
  let r ← checkFile none (some file) (quietMode false true)
  return if r.failed then failedAnswer r color else shownResult r

/-- Loads every source file below a directory and lists which ones fail. -/
def checkAll (directory : Text) (color : Bool) : Act Text := answering do
  let r ← atDesk {} (Batch.run (Path.ofText directory).toText Batch.defaultMode)
  return plain (r.text .terminal) color

end AgdaFrontEnd.Tools
