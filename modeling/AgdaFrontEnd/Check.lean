import AgdaFrontEnd.Disk.Sources
import AgdaFrontEnd.Report.Block
import AgdaFrontEnd.Report.Extractor
import AgdaFrontEnd.Session

/-!
# Checking a file

A check loads a file, asks for the goal at each of its holes, evaluates its entry point if that is
wanted, and reports what it found.

* `Mode`: what is wanted.
* `Report`: the blocks of a report, whether the check failed, and the result of the evaluation.
* `Stage`: how far a check has come.
* `Checker`: a session, or none of its own, and the stage of its latest check.
* `Checker.check`, `Checker.load`: the whole check, and loading only.
-/

namespace AgdaFrontEnd

/-- What is wanted of a check. -/
structure Mode where
  quiet : Bool := false
  /-- Highlighting is asked for while the prover works. -/
  interactive : Bool := false
  /-- The entry point is evaluated. -/
  evaluate : Bool := false
  dialect : Dialect := .json
  deriving DecidableEq, Repr

/-- The outcome of a check. -/
structure Report where
  blocks : List Text
  failed : Bool
  result : Option Text
  deriving DecidableEq, Repr

/-- What is shown for a file without goals and errors. -/
def checkedWord : Text := "Checked.".toList

/-- The text of a report. -/
def Report.text (r : Report) : Text :=
  let body := Text.strip (Text.unlines r.blocks)
  if r.failed then body else if body.isEmpty then checkedWord else body

/-- How far a check has come. -/
inductive Stage where
  | idle
  | loaded
  | queried
  | evaluated
  | reported
  deriving DecidableEq, Repr

/-- The name of a stage. -/
def Stage.name : Stage → Text
  | .idle => "idle".toList
  | .loaded => "loaded".toList
  | .queried => "queried".toList
  | .evaluated => "evaluated".toList
  | .reported => "reported".toList

/-- An activity with a session that goes through stages. -/
abbrev Checking := ExceptT Failure (StateT Stage (StateT Session (StateM World)))

namespace Checking

/-- An activity with the session. -/
def talking (a : Talk α) : Checking α := ExceptT.mk fun stage s w =>
  let ((r, s), w) := a.run s w
  (((r, stage), s), w)

/-- An activity in the world. -/
def inWorld (a : Act α) : Checking α := talking (Talk.inWorld a)

/-- Enters a stage. -/
def enter (stage : Stage) : Checking Unit := ExceptT.mk fun _ s w => (((.ok (), stage), s), w)

/-- The dialect of the session. -/
def dialect : Checking Dialect := do return (← talking Talk.session).dialect

/-- How deep the values may nest that are read. -/
def levels : Checking Json.Levels := do return (← inWorld get).surroundings.levels

/-- An extractor with the items of an answer added. -/
def extract (levels : Json.Levels) (dialect : Dialect) (x : Extractor) (output : Text)
    (hole : Option Int) : Except Failure Extractor :=
  let feed : Except DecodeFault (Extractor.Feed Unit) :=
    match dialect with
    | .json => (Record.decode levels output).map Extractor.feedRecords
    | .text => .ok (Extractor.feedActions hole (InfoAction.parse output))
  match feed with
  | .error fault => .error (.decode fault)
  | .ok feed =>
    match feed.run.run x with
    | (.ok (), x) => .ok x
    | (.error fault, _) => .error (.decode (.integer fault))

/-- Sends a payload and decodes the answer in the dialect of the session. -/
def query (file : Path) (mode : Mode) (payload : Text)
    (decode : Json.Levels → Dialect → Text → Except Failure α) : Checking α := do
  let output ← talking (Session.sendPayload file.toText payload mode.interactive)
  match decode (← levels) (← dialect) output with
  | .ok x => return x
  | .error failure => throw failure

/-- Sends a payload and adds the items of the answer to an extractor. -/
def ask (file : Path) (mode : Mode) (payload : Text) (hole : Option Int) (x : Extractor) :
    Checking Extractor :=
  query file mode payload fun levels dialect output => extract levels dialect x output hole

/-- Reads the file and counts its holes. -/
def source (file : Path) : Checking Text := do
  let content ← inWorld (Act.readSource file)
  inWorld (Act.note (.counted file.toText (Hole.scan content).length))
  return content

/-- Asks for the goals at holes. -/
def askHoles (file : Path) (mode : Mode) : List Hole → Extractor → Checking Extractor
  | [], x => return x
  | h :: hs, x => do
    let x ← ask file mode (Command.goal h.id h.hint) (some h.id) x
    askHoles file mode hs x

/-- The result that an answer to an evaluation shows.  The answer is decoded one call nearer to the
check than one whose items are extracted, which leaves a level more. -/
def resultOf (levels : Json.Levels) (dialect : Dialect) (output : Text) : Except Failure Text :=
  match dialect with
  | .json =>
    match Record.decode levels.succ output with
    | .ok records => .ok (Record.firstNormalForm records)
    | .error fault => .error (.decode fault)
  | .text => .ok (InfoAction.firstNormalForm (InfoAction.parse output))

/-- Evaluates the entry point. -/
def evaluate (file : Path) (mode : Mode) : Checking Text :=
  query file mode (Command.compute Command.entryPoint) resultOf

/-- The blocks of items. -/
def blocks (file : Path) (content : Text) : List Item → Act (List Text)
  | [] => return []
  | i :: is => do
    let b ← i.block .terminal file content
    let bs ← blocks file content is
    return b :: bs

/-- An item is an error. -/
def isDiagnostic : Item → Bool
  | .diagnostic _ => true
  | .goal _ => false

/-- The result of the evaluation, if one is wanted. -/
def result (file : Path) (mode : Mode) : Checking (Option Text) :=
  if mode.evaluate then do
    let result ← evaluate file mode
    enter .evaluated
    return some result
  else return none

/-- Reports the items that were collected. -/
def report (file : Path) (content : Text) (x : Extractor) (result : Option Text) :
    Checking Report := do
  let bs ← inWorld (blocks file content x.items)
  enter .reported
  return ⟨bs, x.items.any isDiagnostic, result⟩

/-- Checks a file. -/
def check (file : Path) (mode : Mode) : Checking Report := do
  enter .idle
  let x ← ask file mode (Command.load file.toText) none Extractor.empty
  enter .loaded
  let content ← source file
  let x ← askHoles file mode (Hole.scan content) x
  enter .queried
  let result ← result file mode
  report file content x result

/-- Loads a file and gives the messages of its errors. -/
def load (file : Path) (mode : Mode) : Checking (List Text) := do
  let x ← ask file mode (Command.load file.toText) none Extractor.empty
  return x.diagnostics.map (·.message)

end Checking

/-- One who checks files: with a session of its own, or with a new one for every request. -/
structure Checker where
  session : Option Session := none
  /-- The stage that the latest check has reached. -/
  stage : Stage := .idle
  deriving DecidableEq, Repr

/-- An activity of a checker. -/
abbrev Desk := ExceptT Failure (StateT Checker (StateM World))

namespace Checker

/-- The session that serves a request. -/
def sessionFor (c : Checker) (mode : Mode) : Session :=
  c.session.getD (Session.new none none mode.dialect mode.quiet)

/-- Serves a request with the checker's session. -/
def serve (mode : Mode) (a : Checking α) : Desk α := ExceptT.mk fun c w =>
  let (((r, stage), s), w) := a.run c.stage (c.sessionFor mode) w
  ((r, ⟨c.session.map fun _ => s, stage⟩), w)

/-- Checks a file. -/
def check (file : Path) (mode : Mode) : Desk Report := serve mode (Checking.check file mode)

/-- Loads a file and gives the messages of its errors. -/
def load (file : Path) (mode : Mode) : Desk (List Text) := serve mode (Checking.load file mode)

end Checker

/-- An activity in the world. -/
def Desk.inWorld (a : Act α) : Desk α := ExceptT.mk fun c w =>
  let (r, w) := a.run.run w
  ((r, c), w)

/-- The file that an argument names, resolved. -/
def sourceArgument (argument : Option Text) : Act Path := do
  match argument with
  | none | some [] => throw (.usage (.notASource none))
  | some t =>
    if !Text.endsWith t sourceSuffix then throw (.usage (.notASource (some t)))
    Act.name (Path.ofText t)
    let path ← Act.look fun d => d.resolve (Path.ofText t)
    if ← Act.look fun d => d.isFile path then return path
    throw (.usage (.fileNotFound t))

end AgdaFrontEnd
