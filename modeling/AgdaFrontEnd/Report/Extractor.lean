import AgdaFrontEnd.Report.Item

/-!
# Extracting items from responses

An extractor collects items over one or more batches of responses.  Goals are kept as they come.
An error is kept when its message comes for the first time.  A message counts as seen before its
place is read, so a message whose place cannot be read is not tried again.

* `Extractor.feedRecords`, `Extractor.feedActions`: one batch in either dialect.
* `Extractor.diagnostics`: the errors collected.
* `Record.firstNormalForm`, `InfoAction.firstNormalForm`: the result of a computation.
-/

namespace AgdaFrontEnd

/-- The items collected so far and the messages seen. -/
structure Extractor where
  items : List Item := []
  seen : List Text := []
  deriving DecidableEq, Repr

namespace Extractor

/-- A step of collecting; it may fail, and what has been collected stays. -/
abbrev Feed := ExceptT IntegerFault (StateM Extractor)

/-- Nothing collected yet. -/
def empty : Extractor := {}

/-- Collects an item. -/
def add (item : Item) : Feed Unit := modify fun x => { x with items := x.items ++ [item] }

/-- Collects the error of a message that has not been seen. -/
def addMessage (message : Text) : Feed Unit := do
  if message ∈ (← get).seen then return
  modify fun x => { x with seen := message :: x.seen }
  let d ← liftM (Diagnostic.ofMessage message)
  add (.diagnostic d)

/-- Collects what a record holds. -/
def feedRecord : Record → Feed Unit
  | .goal id range type entries => add (.goal ⟨some id, range, type, entries⟩)
  | .error message => addMessage message
  | .normalForm _ => return
  | .unrecognized _ _ => return

/-- Collects what records hold. -/
def feedRecords : List Record → Feed Unit
  | [] => return
  | r :: rs => do
    feedRecord r
    feedRecords rs

/-- The word that the title of an error holds. -/
def errorWord : Text := "Error".toList

/-- Collects what a unit of the textual dialect holds; a goal is the one of the given hole. -/
def feedAction (hole : Option Int) (u : InfoAction) : Feed Unit :=
  if u.title.hasWord errorWord then addMessage u.body
  else match Goal.ofDisplay? hole u.body with
    | some g => add (.goal g)
    | none => return

/-- Collects what units of the textual dialect hold. -/
def feedActions (hole : Option Int) : List InfoAction → Feed Unit
  | [] => return
  | u :: us => do
    feedAction hole u
    feedActions hole us

/-- The errors collected. -/
def diagnostics (x : Extractor) : List Diagnostic :=
  x.items.filterMap fun
    | .diagnostic d => some d
    | .goal _ => none

end Extractor

/-- The goals and errors of one batch of records. -/
def Record.items (records : List Record) : Except IntegerFault (List Item) :=
  match (Extractor.feedRecords records).run.run Extractor.empty with
  | (.ok (), x) => .ok x.items
  | (.error e, _) => .error e

/-- What is shown when a computation gave nothing. -/
def noOutput : Text := "No output".toList

/-- The first normal form among records. -/
def Record.firstNormalForm (records : List Record) : Text :=
  (records.findSome? fun
    | .normalForm expr => some expr
    | _ => none).getD noOutput

/-- The title of a unit that shows a normal form. -/
def normalFormTitle : Text := "*Normal Form*".toList

/-- The first normal form among units of the textual dialect. -/
def InfoAction.firstNormalForm (units : List InfoAction) : Text :=
  match units.find? fun u => u.title = normalFormTitle with
  | some u => u.body
  | none => noOutput

end AgdaFrontEnd
