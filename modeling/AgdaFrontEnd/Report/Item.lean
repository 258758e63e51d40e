import AgdaFrontEnd.Hole
import AgdaFrontEnd.Location
import AgdaFrontEnd.Response.Record
import AgdaFrontEnd.Response.Unit

/-!
# Goals and diagnostics

What a check reports is a list of items: the goals at holes and the errors that were found.

* `Goal`: an expected type with the names in scope.
* `Diagnostic`: an error with its file and its range.
* `Goal.ofDisplay?`: the goal that the textual dialect displays.
-/

namespace AgdaFrontEnd

/-- The expected type at a hole and the names in scope there. -/
structure Goal where
  id : Option Int
  range : Option SourceRange
  type : Text
  context : List (Text × Text)
  deriving DecidableEq, Repr

/-- An error about the checked source. -/
structure Diagnostic where
  message : Text
  file : Text
  range : Option SourceRange
  deriving DecidableEq, Repr

/-- A reported goal or error. -/
inductive Item where
  | goal (g : Goal)
  | diagnostic (d : Diagnostic)
  deriving DecidableEq, Repr

/-- The diagnostic of an error message. -/
def Diagnostic.ofMessage (message : Text) : Except IntegerFault Diagnostic := do
  return ⟨message, Location.fileOf message, ← Location.ofMessage message⟩

namespace Goal

/-- The start of the line that shows the expected type. -/
def goalWord : Text := "Goal".toList

/-- The start of the line that shows the type of the hint. -/
def haveWord : Text := "Have".toList

/-- The characters that dividing lines are drawn with. -/
def isDividing (c : Char) : Bool :=
  isBlank c || c = '—' || c = '─' || c = '-' || c = '=' || c = '_'

/-- A line without content: blank, or drawn to divide. -/
def isDivider (line : Text) : Bool := line.all isDividing

/-- What a line of a display says. -/
inductive DisplayLine where
  | divider
  | expected (type : Text)
  | hinted
  | entry (name type : Text)
  deriving DecidableEq, Repr

namespace DisplayLine

/-- Reads a line of a display. -/
def ofText (line : Text) : DisplayLine :=
  if isDivider line then divider
  else if line.startsWith goalWord then expected ((line.after? ':').getD []).strip
  else if line.startsWith haveWord then hinted
  else match line.splitAt? " : ".toList with
    | some (name, type) => entry name.strip type.strip
    | none => entry line.strip []

/-- The type in a line that shows the expected one. -/
def expected? : DisplayLine → Option Text
  | expected type => some type
  | _ => none

/-- The name and the type in a line that shows a name in scope. -/
def inScope? : DisplayLine → Option (Text × Text)
  | entry name type => some (name, type)
  | _ => none

end DisplayLine

/-- The goal that a text displays, if it displays one: the type of its last goal line, and a name
in scope for every line of another kind. -/
def ofDisplay? (id : Option Int) (body : Text) : Option Goal :=
  let ls := body.lines
  if ls.any fun l => l.startsWith goalWord || l.startsWith haveWord then
    let shown := ls.map DisplayLine.ofText
    some ⟨id, none, (shown.filterMap DisplayLine.expected?).getLast?.getD [],
      shown.filterMap DisplayLine.inScope?⟩
  else none

end Goal

end AgdaFrontEnd
