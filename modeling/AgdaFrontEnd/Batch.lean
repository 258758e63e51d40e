import AgdaFrontEnd.Check

/-!
# Checking a directory

A batch loads every source file below a directory, one after another.  A file fails if its process
fails or an error is reported; the batch goes on.

* `BatchReport`: the files that passed and failed, with a line for each.
* `Batch.run`: loading the files below a directory.
-/

namespace AgdaFrontEnd

/-- The outcome of a batch. -/
structure BatchReport where
  checked : List Path := []
  errored : List Path := []
  lines : List Text := []
  deriving DecidableEq, Repr

namespace BatchReport

/-- Some file failed. -/
def failed (r : BatchReport) : Bool := !r.errored.isEmpty

/-- The text of a batch: its lines and a summary. -/
def text (p : Palette) (r : BatchReport) : Text :=
  Text.unlines (r.lines ++
    if r.errored.isEmpty then [p.coloured .green "All files checked!".toList]
    else
      [p.coloured .green (Text.ofNat r.checked.length ++ " file(s) checked.".toList),
       p.coloured .red (Text.ofNat r.errored.length ++ " file(s) with errors.".toList)])

/-- The report with one more file, which passed or failed. -/
def add (p : Palette) (r : BatchReport) (file : Path) (passed : Bool) : BatchReport :=
  if passed then
    { r with
      checked := r.checked ++ [file]
      lines := r.lines ++ [p.coloured .green ("✓ ".toList ++ file.toText)] }
  else
    { r with
      errored := r.errored ++ [file]
      lines := r.lines ++ [p.coloured .red ("✗ ".toList ++ file.toText)] }

end BatchReport

namespace Batch

/-- The mode of a batch unless another one is given. -/
def defaultMode : Mode := { quiet := true }

/-- Loads one file: whether it passed.  The failure of its process is its own. -/
def loadFile (mode : Mode) (file : Path) : Desk Bool := do
  let path ← Desk.inWorld (Act.look fun d => d.resolve file)
  let outcome ← ExceptT.mk fun c w =>
    let ((r, c), w) := (Checker.load path mode).run c w
    ((Except.ok r, c), w)
  match outcome with
  | .ok messages => return messages.isEmpty
  | .error failure =>
    match failure with
    | .exited _ _ | .notStarted _ _ =>
      Desk.inWorld (Act.note (.batchFailed file.toText failure.message))
      return false
    | failure => throw failure

/-- Loads files in order. -/
def loadFiles (mode : Mode) : List Path → BatchReport → Desk BatchReport
  | [], r => return r
  | f :: fs, r => do
    let passed ← loadFile mode f
    loadFiles mode fs (r.add .terminal f passed)

/-- Loads every source file below a directory. -/
def run (directory : Text) (mode : Mode) : Desk BatchReport := do
  let root := Path.ofText directory
  if ← Desk.inWorld (Act.isDirectory root) then
    let files ← Desk.inWorld (Act.look fun d => d.sources root)
    loadFiles mode files {}
  else throw (.usage (.notADirectory directory))

end Batch

end AgdaFrontEnd
