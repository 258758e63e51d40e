import AgdaFrontEnd.Integer
import AgdaFrontEnd.SourceRange

/-!
# Locations in messages

A message about a source file starts with the file and the place in it, for instance
`A.agda:3,5-4,2` or, within one line, `A.agda:3,5-8`.

* `Location.token?`: the numbers of a location at the start of a text.
* `Location.find?`: the first location in a line.
* `Location.ofMessage`: the range in the first line of a message.
* `Location.fileOf`: the file of a message.
-/

namespace AgdaFrontEnd

namespace Location

/-- The digits of a location's numbers.  The end line is left out within one line. -/
structure Token where
  startLine : List Nat
  startCol : List Nat
  endLine : Option (List Nat)
  endCol : List Nat
  deriving DecidableEq, Repr

/-- The digits at the start of a text, at least one, and the rest. -/
def digits? (t : Text) : Option (List Nat × Text) :=
  match t.takeWhile isDigit with
  | [] => none
  | ds => some (ds.filterMap digitValue?, t.dropWhile isDigit)

/-- The numbers of a location at the start of a text. -/
def token? (t : Text) : Option Token := do
  let (startLine, t) ← digits? t
  let t ← t.dropPrefix? [',']
  let (startCol, t) ← digits? t
  let t ← t.dropPrefix? ['-']
  let (first, t) ← digits? t
  match t.dropPrefix? [','] >>= digits? with
  | some (second, _) => some ⟨startLine, startCol, some first, second⟩
  | none => some ⟨startLine, startCol, none, first⟩

/-- The first location in a text. -/
def find? : Text → Option Token
  | [] => none
  | c :: t =>
    match token? (c :: t) with
    | some l => some l
    | none => find? t

/-- The range of a location, if its numbers are in order. -/
def Token.range (l : Token) : Except IntegerFault (Option SourceRange) := do
  let startLine ← Integer.ofDigits l.startLine
  let startCol ← Integer.ofDigits l.startCol
  let endLine ← match l.endLine with
    | some ds => Integer.ofDigits ds
    | none => pure startLine
  let endCol ← Integer.ofDigits l.endCol
  return (SourceRange.ofInts startLine startCol endLine endCol).toOption

/-- The range in the first line of a message. -/
def ofMessage (message : Text) : Except IntegerFault (Option SourceRange) :=
  match find? (message.upTo '\n') with
  | some l => l.range
  | none => .ok none

/-- The file that a message is about: all that stands before its first colon. -/
def fileOf (message : Text) : Text := message.upTo ':'

end Location

end AgdaFrontEnd
