import AgdaFrontEnd.Integer
import AgdaFrontEnd.Json.Display
import AgdaFrontEnd.SourceRange

/-!
# The shape of JSON values

A response is read by asking JSON values for the parts that they should have.  Where a value has
another shape, the first missing part in reading order is the fault.

* `ShapeFault`: what was missing, with its wording.
* `Json.part`, `Json.memberOr`, `Json.toInt`, `Json.elements`: asking for parts.
* `SourceRange.ofJson`: an interval as a range.
-/

namespace AgdaFrontEnd

/-- The kind of a JSON value, as messages name it. -/
def Json.kindName : Json → Text
  | .null => "NoneType".toList
  | .bool _ => "bool".toList
  | .int _ => "int".toList
  | .float _ => "float".toList
  | .string _ => "str".toList
  | .array _ => "list".toList
  | .object _ => "dict".toList

/-- A value counts as present unless it is null, false, zero or empty. -/
def Json.isPresent : Json → Bool
  | .null => false
  | .bool b => b
  | .int n => n != 0
  | .float (.finite _ m _) => m != 0
  | .float _ => true
  | .string t => !t.isEmpty
  | .array items => !items.isEmpty
  | .object members => !members.isEmpty

/-- Why a JSON value does not have the shape of a response. -/
inductive ShapeFault where
  /-- An object lacks a key. -/
  | missingKey (key : Text)
  /-- An object was asked for its first item. -/
  | missingIndex
  /-- A value of this kind has no parts. -/
  | noParts (kind : Text)
  /-- A list was asked for a key. -/
  | keyOfList
  /-- A string was asked for a key. -/
  | keyOfString
  /-- A value of this kind has no elements. -/
  | noElements (kind : Text)
  /-- A value of this kind has no members. -/
  | noMembers (kind : Text)
  /-- A value of this kind is no number. -/
  | notANumber (kind : Text)
  /-- A floating-point value that is no number. -/
  | nan
  /-- An infinite number. -/
  | infinite
  /-- A string that is no integer. -/
  | integer (fault : IntegerFault)
  /-- Four numbers that are no range. -/
  | inverted (numbers : Inverted)
  deriving DecidableEq, Repr

/-- The wording of a fault. -/
def ShapeFault.message : ShapeFault → Text
  | .missingKey key => key.quoted
  | .missingIndex => ['0']
  | .noParts kind => ['\''] ++ kind ++ "' object is not subscriptable".toList
  | .keyOfList => "list indices must be integers or slices, not str".toList
  | .keyOfString => "string indices must be integers, not 'str'".toList
  | .noElements kind => ['\''] ++ kind ++ "' object is not iterable".toList
  | .noMembers kind => ['\''] ++ kind ++ "' object has no attribute 'get'".toList
  | .notANumber kind =>
    "int() argument must be a string, a bytes-like object or a real number, not '".toList ++ kind ++
      ['\'']
  | .nan => "cannot convert float NaN to integer".toList
  | .infinite => "cannot convert float infinity to integer".toList
  | .integer fault => fault.message
  | .inverted numbers => numbers.message

namespace Json

/-- The value of a key that must be there. -/
def part (v : Json) (key : Text) : Except ShapeFault Json :=
  match v with
  | .object members =>
    match member? key members with
    | some v => .ok v
    | none => .error (.missingKey key)
  | .array _ => .error .keyOfList
  | .string _ => .error .keyOfString
  | v => .error (.noParts v.kindName)

/-- The value of a key that may be missing. -/
def memberOr (v : Json) (key : Text) (default : Json) : Except ShapeFault Json :=
  match v with
  | .object members => .ok ((member? key members).getD default)
  | v => .error (.noMembers v.kindName)

/-- The first item of a value that is present. -/
def firstItem (v : Json) : Except ShapeFault Json :=
  match v with
  | .array (v :: _) => .ok v
  | .string (c :: _) => .ok (.string [c])
  | .object _ => .error .missingIndex
  | v => .error (.noParts v.kindName)

/-- The elements of a value: the items of a list, the characters of a string, the keys of an
object. -/
def elements (v : Json) : Except ShapeFault (List Json) :=
  match v with
  | .array items => .ok items
  | .string t => .ok (t.map fun c => .string [c])
  | .object members => .ok (members.map fun m => .string m.1)
  | v => .error (.noElements v.kindName)

/-- A value as an integer: a number without its fraction, a truth value as zero or one, a string by
its digits. -/
def toInt (v : Json) : Except ShapeFault Int :=
  match v with
  | .int n => .ok n
  | .bool b => .ok (if b then 1 else 0)
  | .float .nan => .error .nan
  | .float x => match x.truncate? with
    | some n => .ok n
    | none => .error .infinite
  | .string t => (Integer.ofText t).mapError .integer
  | v => .error (.notANumber v.kindName)

end Json

/-- A range of a JSON interval, whose two ends have a line and a column each. -/
def SourceRange.ofJson (v : Json) : Except ShapeFault SourceRange := do
  let start ← v.part "start".toList
  let stop ← v.part "end".toList
  let startLine ← start.part "line".toList >>= Json.toInt
  let startCol ← start.part "col".toList >>= Json.toInt
  let endLine ← stop.part "line".toList >>= Json.toInt
  let endCol ← stop.part "col".toList >>= Json.toInt
  (SourceRange.ofInts startLine startCol endLine endCol).mapError .inverted

end AgdaFrontEnd
