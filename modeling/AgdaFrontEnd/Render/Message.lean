import AgdaFrontEnd.Location
import AgdaFrontEnd.Render.Style

/-!
# Short forms of messages

Two kinds of error messages have a short form: a mismatch of two types, and a name that is not in
scope.

* `Message.mismatch?`: the two types of a mismatch.
* `Message.unbound?`: the name that is not in scope.
* `Message.short?`: the short form; a mismatch comes first.
-/

namespace AgdaFrontEnd.Message

/-- A path in the style of file names. -/
def fileLine (p : Palette) (path : Text) : Text := p.dim ++ p.underline ++ path ++ p.reset

/-! ## Mismatches -/

/-- The two signs that stand between types that differ. -/
def mismatchSigns : List Text := [" != ".toList, " !=< ".toList]

/-- What follows a sign at the start of a text; it is not empty. -/
def afterSign? (t : Text) : Option Text :=
  mismatchSigns.findSome? fun sign =>
    match t.dropPrefix? sign with
    | some (c :: r) => some (c :: r)
    | _ => none

/-- The two sides of the last sign in a line of which `read` stands in front, backwards; the first
side is not empty. -/
def lastSign? (read : Text) : Text → Option (Text × Text)
  | [] => none
  | c :: r =>
    match lastSign? (c :: read) r with
    | some sides => some sides
    | none => if read.isEmpty then none else (afterSign? (c :: r)).map (read.reverse, ·)

/-- The detected and the expected type of a mismatch: the two sides of the last sign in the first
line that has one. -/
def mismatch? (message : Text) : Option (Text × Text) :=
  (message.lines.findSome? (lastSign? [])).map fun (detected, expected) =>
    (detected.strip, expected.strip)

/-- The short form of a mismatch. -/
def shortMismatch? (p : Palette) (message : Text) : Option Text :=
  (mismatch? message).map fun (detected, expected) =>
    p.bold ++ "TypeMismatch:".toList ++ p.reset ++ "\n- expected: ".toList ++ expected ++
      "\n- detected: ".toList ++ detected ++ ['\n'] ++
      fileLine p (Location.fileOf (message.upTo '\n'))

/-! ## Names that are not in scope -/

/-- What a message about a missing name says before the name. -/
def unboundWords : Text := "Not in scope:".toList

/-- The name after the words at the start of a text: blanks, the name, and the word that follows
it. -/
def unboundName? (t : Text) : Option Text := do
  let t ← t.dropPrefix? unboundWords
  let rest := t.dropWhile isBlank
  let name := rest.takeWhile (!isBlank ·)
  if t.length = rest.length ∨ name.isEmpty then none
  else (Text.dropPrefix? (rest.dropWhile (!isBlank ·)) " at".toList).map fun _ => name

/-- The first name that a message says is not in scope. -/
def unbound? : Text → Option Text
  | [] => none
  | c :: t =>
    match unboundName? (c :: t) with
    | some name => some name
    | none => unbound? t

/-- The short form of a message about a missing name. -/
def shortUnbound? (p : Palette) (message : Text) : Option Text :=
  (unbound? message).map fun name =>
    p.bold ++ "Unbound:".toList ++ p.reset ++ " '".toList ++ name ++ "'\n".toList ++
      fileLine p (Location.fileOf message)

/-- The short form of a message, if it has one. -/
def short? (p : Palette) (message : Text) : Option Text :=
  match shortMismatch? p message with
  | some t => some t
  | none => shortUnbound? p message

end AgdaFrontEnd.Message
