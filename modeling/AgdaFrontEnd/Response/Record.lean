import AgdaFrontEnd.Json.Reader
import AgdaFrontEnd.Response.Shape
import AgdaFrontEnd.Text.Blank

/-!
# Responses in the JSON dialect

The prover answers with lines, some of which are JSON objects; a line may carry a prompt.  Objects
of three shapes are of interest: the goal at a hole, an error, and the normal form of an
expression.

* `Record`: a response by its shape.
* `Record.classify`: the shape of an object.
* `Record.objects`: the objects among the lines of an output.
* `Record.decode`: the records of an output.

Decoding fails at a number with too many digits, at an infinite number in the place of an integer,
and at an array or object that stands too deep (`DecodeFault`).
-/

namespace AgdaFrontEnd

/-- The members of a JSON object. -/
abbrev Members := List (Text × Json)

/-- Why an object is not recognised. -/
inductive Unfit where
  /-- It is of another kind. -/
  | otherKind
  /-- It is a goal of which a part is missing. -/
  | malformedGoal (fault : ShapeFault)
  /-- It is an error without a message. -/
  | errorWithoutMessage
  /-- It is a normal form without an expression. -/
  | normalFormWithoutExpr
  deriving DecidableEq, Repr

/-- The wording of a reason. -/
def Unfit.message : Unfit → Text
  | .otherKind => []
  | .malformedGoal fault => "Malformed GoalSpecific: ".toList ++ fault.message
  | .errorWithoutMessage => "Error without message".toList
  | .normalFormWithoutExpr => "NormalForm without expr".toList

/-- A response of the JSON dialect. -/
inductive Record where
  /-- The goal at an interaction point: its range, its type, and the names and types in scope. -/
  | goal (id : Int) (range : Option SourceRange) (type : Text) (entries : List (Text × Text))
  /-- An error. -/
  | error (message : Text)
  /-- The result of a computation. -/
  | normalForm (expr : Text)
  /-- Anything else. -/
  | unrecognized (raw : Members) (reason : Unfit)
  deriving Repr

/-- Why an output was not decoded. -/
inductive DecodeFault where
  /-- A number has too many digits to be read. -/
  | integer (fault : IntegerFault)
  /-- An infinite number stands in the place of an integer. -/
  | infinite
  /-- An array or object stands deeper than values are read. -/
  | tooDeep (container : Json.Container)
  deriving DecidableEq, Repr

/-- The wording of a fault. -/
def DecodeFault.message : DecodeFault → Text
  | .integer fault => fault.message
  | .infinite => ShapeFault.infinite.message
  | .tooDeep container =>
    "maximum recursion depth exceeded while decoding a JSON ".toList ++ container.name ++
      " from a unicode string".toList

namespace Record

/-- One entry of a goal's context: its own name, else its reified one, and its type. -/
def entry (v : Json) : Except ShapeFault (Text × Text) := do
  let reified ← v.memberOr "reifiedName".toList (.string [])
  let name ← v.memberOr "originalName".toList reified
  let binding ← v.memberOr "binding".toList (.string [])
  return (name.asText, binding.asText)

/-- The range of an interaction point: the first of its intervals, if it has any. -/
def pointRange (ranges : Json) : Except ShapeFault (Option SourceRange) :=
  if ranges.isPresent then do
    let first ← ranges.firstItem
    return some (← SourceRange.ofJson first)
  else .ok none

/-- The goal that an information object describes. -/
def goalOf (info : Json) : Except ShapeFault Record := do
  let point ← info.part "interactionPoint".toList
  let goalInfo ← info.part "goalInfo".toList
  let ranges ← point.memberOr "range".toList .null
  let id ← point.part "id".toList >>= Json.toInt
  let range ← pointRange ranges
  let type ← goalInfo.part "type".toList
  let entries ← goalInfo.memberOr "entries".toList (.array []) >>= Json.elements
  let entries ← entries.mapM entry
  return .goal id range type.asText entries

/-- The record of an information object that says it is a goal. -/
def classifyGoal (info : Members) : Except DecodeFault Record :=
  match goalOf (.object info) with
  | .ok record => .ok record
  | .error .infinite => .error .infinite
  | .error fault =>
    .ok (.unrecognized [("kind".toList, .string "DisplayInfo".toList), ("info".toList, .object info)]
      (.malformedGoal fault))

/-- The message of an error: a member of an object, or the error itself. -/
def errorMessage (error : Json) : Option Text :=
  match error with
  | .object members =>
    match Json.member? "message".toList members with
    | some (.string t) => some t
    | _ => none
  | .string t => some t
  | _ => none

/-- The value of a key is the given word. -/
def hasWord (key : Text) (word : Text) (members : Members) : Bool :=
  match Json.member? key members with
  | some (.string t) => t = word
  | _ => false

/-- The record of an information object `info` that is part of `raw`. -/
def classifyInfo (raw info : Members) : Except DecodeFault Record :=
  if hasWord "kind".toList "GoalSpecific".toList info then classifyGoal info
  else
    let error := (Json.member? "error".toList info).getD .null
    if error.isPresent then
      match errorMessage error with
      | some message => .ok (.error message)
      | none => .ok (.unrecognized raw .errorWithoutMessage)
    else if hasWord "kind".toList "NormalForm".toList info then
      match Json.member? "expr".toList info with
      | some (.string expr) => .ok (.normalForm expr)
      | _ => .ok (.unrecognized raw .normalFormWithoutExpr)
    else .ok (.unrecognized raw .otherKind)

/-- The record of an object. -/
def classify (raw : Members) : Except DecodeFault Record :=
  if hasWord "kind".toList "DisplayInfo".toList raw then
    match Json.member? "info".toList raw with
    | some (.object info) => classifyInfo raw info
    | _ => .ok (.unrecognized raw .otherKind)
  else .ok (.unrecognized raw .otherKind)

/-- The mark before a line that answers a prompt. -/
def prompt : Text := "JSON>".toList

/-- A line without the blanks around it and without a prompt. -/
def payload (line : Text) : Text :=
  match line.strip.dropPrefix? prompt with
  | some r => r.strip
  | none => line.strip

/-- The object on a line, if there is one. -/
def objectOf (levels : Json.Levels) (line : Text) : Except DecodeFault (Option Members) :=
  match payload line with
  | [] => .ok none
  | t =>
    match Json.ofText levels t with
    | .ok (.object members) => .ok (some members)
    | .ok _ => .ok none
    | .error .malformed => .ok none
    | .error (.tooManyDigits count) => .error (.integer (.tooManyDigits count))
    | .error (.tooDeep container) => .error (.tooDeep container)

/-- The objects on lines, in order. -/
def objectsOfLines (levels : Json.Levels) : List Text → Except DecodeFault (List Members)
  | [] => .ok []
  | l :: ls => do
    let o ← objectOf levels l
    let os ← objectsOfLines levels ls
    return o.toList ++ os

/-- The objects among the lines of an output, in order. -/
def objects (levels : Json.Levels) (output : Text) : Except DecodeFault (List Members) :=
  objectsOfLines levels output.lines

/-- The records of an output. -/
def decode (levels : Json.Levels) (output : Text) : Except DecodeFault (List Record) := do
  let os ← objects levels output
  os.mapM classify

end Record

end AgdaFrontEnd
