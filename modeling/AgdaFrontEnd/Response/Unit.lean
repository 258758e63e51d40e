import AgdaFrontEnd.Response.Quoted
import AgdaFrontEnd.Text.Blank

/-!
# Responses in the textual dialect

The textual dialect answers with parenthesised units.  A unit opens at the start of a line, behind
a prompt perhaps, with one of two directives, and goes on over as many lines as it takes to close
its strings and parentheses.  Other lines are passed over, and so is a unit that is never closed.

* `InfoAction`: a unit with its directive and its fields.
* `InfoAction.opening?`: the directive that a line opens, and what follows it.
* `InfoAction.parse`: the units of an output.
-/

namespace AgdaFrontEnd

/-- A unit of the textual dialect. -/
structure InfoAction where
  directive : Text
  fields : List Text
  deriving DecidableEq, Repr

namespace InfoAction

/-- The first field. -/
def title (u : InfoAction) : Text := u.fields.head?.getD []

/-- The second field. -/
def body (u : InfoAction) : Text := u.fields[1]?.getD []

/-- The mark before a line that answers a prompt. -/
def prompt : Text := "Agda2>".toList

/-- The directive of every unit. -/
def plain : Text := "agda2-info-action".toList

/-- The directive of a unit that also copies its text. -/
def andCopy : Text := plain ++ "-and-copy".toList

/-- The directive `d` at the start of a text, and what follows the blank after it. -/
def word? (t d : Text) : Option (Text × Text) :=
  match t.dropPrefix? d with
  | some (c :: r) => if isBlank c then some (d, r) else none
  | _ => none

/-- The directive at the start of a text, and what follows the blank after it. -/
def directive? (t : Text) : Option (Text × Text) :=
  (t.dropPrefix? ['(']).bind fun t => [andCopy, plain].findSome? (word? t)

/-- A line without the blanks around it and without a prompt. -/
def payload (line : Text) : Text :=
  match line.strip.dropPrefix? prompt with
  | some r => r.strip
  | none => line.strip

/-- The directive that a line opens, and what follows it. -/
def opening? (line : Text) : Option (Text × Text) := directive? (payload line)

/-- The units of lines.  An open unit has a directive and the text of its lines so far. -/
def parseLines : Option (Text × Text) → List Text → List InfoAction
  | _, [] => []
  | none, l :: ls =>
    match opening? l with
    | none => parseLines none ls
    | some (d, r) =>
      let s := Quoted.scan ('(' :: r)
      if s.complete then ⟨d, s.fields⟩ :: parseLines none ls else parseLines (some (d, r)) ls
  | some (d, t), l :: ls =>
    let t := t ++ '\n' :: l
    let s := Quoted.scan ('(' :: t)
    if s.complete then ⟨d, s.fields⟩ :: parseLines none ls else parseLines (some (d, t)) ls

/-- The units of an output. -/
def parse (output : Text) : List InfoAction := parseLines none output.lines

end InfoAction

end AgdaFrontEnd
