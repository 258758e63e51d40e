import AgdaFrontEnd.Integer
import AgdaFrontEnd.Json.Value

/-!
# Reading JSON

A reader of a text takes what it needs from the front and gives the rest back.  Besides the
standard's values it takes the three names of the numbers that have no digits.  Arrays and objects
are read only so many levels deep: the calls that read them are open one within the other, and the
room for that is bounded.  The first fault in reading order is the one reported.

An escape may spell a half of a surrogate pair that stands alone.  It is a code point of its own to
a reader (`Json.points`) but no character, so a text has the replacement character in its place
(`Json.ofUnits`): what is said here of all texts is said of strings without such halves.

* `Json.Levels`: how deep a reader goes.
* `Json.Fault`: a text that is no JSON value, that has too long a whole number, or that is too deep.
* `Json.points`, `Json.ofUnits`: the code points that units give, and their text.
* `Json.readString`, `Json.readNumber`: the two tokens that need more than one look.
* `Json.readValue`: one value; the fuel bounds the number of calls.
* `Json.ofText`: a whole text.
-/

namespace AgdaFrontEnd.Json

/-- The least number of levels that any reader goes down: more than an answer of the prover has and
than the values that are written here. -/
def fewestLevels : Nat := 8

/-- How deep a reader goes: how many arrays and objects it reads within each other. -/
structure Levels where
  count : Nat
  fewest_le : fewestLevels ≤ count
  deriving DecidableEq, Repr

/-- The usual levels.  About a thousand calls may be open at once, and the calls that lead to the reader
are among them. -/
def Levels.usual : Levels := ⟨980, Nat.le_of_ble_eq_true rfl⟩

/-- A level more. -/
def Levels.succ (l : Levels) : Levels := ⟨l.count + 1, Nat.le_succ_of_le l.fewest_le⟩

/-- The values that have values within them. -/
inductive Container where
  | array
  | object
  deriving DecidableEq, Repr

/-- The name of a kind of container. -/
def Container.name : Container → Text
  | .array => "array".toList
  | .object => "object".toList

/-- Why a text was not read. -/
inductive Fault where
  /-- The text is not a JSON value. -/
  | malformed
  /-- A whole number has more digits than are read. -/
  | tooManyDigits (count : Nat)
  /-- An array or object opens where no level is left for it. -/
  | tooDeep (container : Container)
  deriving DecidableEq, Repr

/-- Blanks between tokens. -/
def isSpace (c : Char) : Bool := c = ' ' || c = '\t' || c = '\n' || c = '\r'

/-- The text without the blanks at its start. -/
def skipSpaces (t : Text) : Text := t.dropWhile isSpace

/-! ## Strings -/

/-- The value of a hexadecimal digit. -/
def hexDigit? (c : Char) : Option Nat :=
  if '0' ≤ c ∧ c ≤ '9' then some (c.toNat - '0'.toNat)
  else if 'a' ≤ c ∧ c ≤ 'f' then some (c.toNat - 'a'.toNat + 10)
  else if 'A' ≤ c ∧ c ≤ 'F' then some (c.toNat - 'A'.toNat + 10)
  else none

/-- Four hexadecimal digits. -/
def hexFour? (a b c d : Char) : Option Nat := do
  let a ← hexDigit? a
  let b ← hexDigit? b
  let c ← hexDigit? c
  let d ← hexDigit? d
  some (((a * 16 + b) * 16 + c) * 16 + d)

/-- The number is the first half of a surrogate pair. -/
def isHighSurrogate (n : Nat) : Bool := 0xD800 ≤ n && n < 0xDC00

/-- The number is the second half of a surrogate pair. -/
def isLowSurrogate (n : Nat) : Bool := 0xDC00 ≤ n && n < 0xE000

/-- The code points of a list of code points and UTF-16 code units: two halves of a pair become one
code point, and a half that stands alone is kept. -/
def points : List Nat → List Nat
  | [] => []
  | [n] => [n]
  | n :: m :: r =>
    if isHighSurrogate n && isLowSurrogate m then
      (0x10000 + (n - 0xD800) * 0x400 + (m - 0xDC00)) :: points r
    else n :: points (m :: r)

/-- The character of a code point; half of a surrogate pair is none and is replaced. -/
def ofPoint (n : Nat) : Char := if isHighSurrogate n || isLowSurrogate n then '\uFFFD' else Char.ofNat n

/-- The text of a list of code points and UTF-16 code units. -/
def ofUnits (units : List Nat) : Text := (points units).map ofPoint

/-- The character of an escape with one letter. -/
def escapedChar? : Char → Option Char
  | '"' => some '"'
  | '\\' => some '\\'
  | '/' => some '/'
  | 'b' => some '\x08'
  | 'f' => some '\x0c'
  | 'n' => some '\n'
  | 'r' => some '\r'
  | 't' => some '\t'
  | _ => none

/-- The rest of a string up to its closing quote: its characters by their code points, its escapes
by the units they give. -/
def readUnits : Text → Except Fault (List Nat × Text)
  | '"' :: r => .ok ([], r)
  | '\\' :: 'u' :: a :: b :: c :: d :: r =>
    match hexFour? a b c d with
    | some n => (readUnits r).map fun (s, rest) => (n :: s, rest)
    | none => .error .malformed
  | '\\' :: e :: r =>
    match escapedChar? e with
    | some c => (readUnits r).map fun (s, rest) => (c.toNat :: s, rest)
    | none => .error .malformed
  | c :: r =>
    if c = '\\' || c.toNat < 0x20 then .error .malformed
    else (readUnits r).map fun (s, rest) => (c.toNat :: s, rest)
  | [] => .error .malformed

/-- The rest of a string up to its closing quote. -/
def readString (t : Text) : Except Fault (Text × Text) :=
  (readUnits t).map fun (s, rest) => (ofUnits s, rest)

/-! ## Numbers -/

/-- The character is an ASCII digit. -/
def isDigit (c : Char) : Bool := '0' ≤ c && c ≤ '9'

/-- The values of ASCII digits. -/
def digitsOf (t : Text) : List Nat := t.map fun c => c.toNat - '0'.toNat

/-- A point and at least one digit after it: the digits and the rest. -/
def fraction? : Text → Option (Text × Text)
  | '.' :: d :: r => if isDigit d then some ((d :: r).takeWhile isDigit, (d :: r).dropWhile isDigit) else none
  | _ => none

/-- An exponent with at least one digit: its value and the rest. -/
def exponent? : Text → Option (Int × Text)
  | e :: r =>
    if e = 'e' || e = 'E' then
      let (negative, r) :=
        match r with
        | '-' :: r => (true, r)
        | '+' :: r => (false, r)
        | _ => (false, r)
      match r.takeWhile isDigit with
      | [] => none
      | ds =>
        let n : Int := Digits.value (digitsOf ds)
        some (if negative then -n else n, r.dropWhile isDigit)
    else none
  | [] => none

/-- The whole part of a number: a single zero, or digits that do not start with one. -/
def wholePart? : Text → Option (Text × Text)
  | '0' :: r => some (['0'], r)
  | t => if (t.takeWhile isDigit).isEmpty then none else some (t.takeWhile isDigit, t.dropWhile isDigit)

/-- A number behind its sign.  It is a floating-point number if it has a fraction or an exponent. -/
def readNumber (negative : Bool) (t : Text) : Except Fault (Json × Text) :=
  match wholePart? t with
  | none => .error .malformed
  | some (whole, r) =>
    let (isFloat, places, r) :=
      match fraction? r with
      | some (ds, r) => (true, ds, r)
      | none => (false, [], r)
    let (isFloat, power, r) :=
      match exponent? r with
      | some (x, r) => (true, x, r)
      | none => (isFloat, 0, r)
    if isFloat then
      .ok (.float (Binary64.ofDecimal negative (Digits.value (digitsOf (whole ++ places)))
        (power - places.length)), r)
    else
      match Integer.ofDigits (digitsOf whole) with
      | .ok n => .ok (.int (if negative then -(n : Int) else n), r)
      | .error _ => .error (.tooManyDigits whole.length)

/-! ## Values -/

/-- The values that have a name. -/
def names : List (Text × Json) :=
  [("null".toList, .null), ("true".toList, .bool true), ("false".toList, .bool false),
   ("NaN".toList, .float .nan), ("Infinity".toList, .float (.infinite false)),
   ("-Infinity".toList, .float (.infinite true))]

/-- A named value or a number. -/
def readScalar (t : Text) : Except Fault (Json × Text) :=
  match names.findSome? fun (name, v) => (t.dropPrefix? name).map (v, ·) with
  | some r => .ok r
  | none =>
    match t with
    | '-' :: r => readNumber true r
    | _ => readNumber false t

mutual

/-- One value at the start of a text, with so many levels left. -/
def readValue : (fuel levels : Nat) → Text → Except Fault (Json × Text)
  | 0, _, _ => .error .malformed
  | fuel + 1, levels, t =>
    match t with
    | '"' :: r => (readString r).map fun (s, rest) => (.string s, rest)
    | '[' :: r =>
      match levels with
      | 0 => .error (.tooDeep .array)
      | levels + 1 =>
        match skipSpaces r with
        | ']' :: rest => .ok (.array [], rest)
        | r => (readItems fuel levels r).map fun (items, rest) => (.array items, rest)
    | '{' :: r =>
      match levels with
      | 0 => .error (.tooDeep .object)
      | levels + 1 =>
        match skipSpaces r with
        | '}' :: rest => .ok (.object [], rest)
        | r => (readMembers fuel levels [] r).map fun (members, rest) => (.object members, rest)
    | t => readScalar t

/-- The items of an array, from the first one to the closing bracket. -/
def readItems : (fuel levels : Nat) → Text → Except Fault (List Json × Text)
  | 0, _, _ => .error .malformed
  | fuel + 1, levels, t => do
    let (v, r) ← readValue fuel levels t
    match skipSpaces r with
    | ']' :: rest => .ok ([v], rest)
    | ',' :: r =>
      let (vs, rest) ← readItems fuel levels (skipSpaces r)
      .ok (v :: vs, rest)
    | _ => .error .malformed

/-- The members of an object, from the first one to the closing brace, added to those before. -/
def readMembers :
    (fuel levels : Nat) → List (Text × Json) → Text → Except Fault (List (Text × Json) × Text)
  | 0, _, _, _ => .error .malformed
  | fuel + 1, levels, before, t =>
    match t with
    | '"' :: r => do
      let (key, r) ← readString r
      match skipSpaces r with
      | ':' :: r =>
        let (v, r) ← readValue fuel levels (skipSpaces r)
        let members := put key v before
        match skipSpaces r with
        | '}' :: rest => .ok (members, rest)
        | ',' :: r => readMembers fuel levels members (skipSpaces r)
        | _ => .error .malformed
      | _ => .error .malformed
    | _ => .error .malformed

end

/-- Reads a text that is one value with blanks around it. -/
def ofText (levels : Levels) (t : Text) : Except Fault Json := do
  let (v, rest) ← readValue (2 * t.length + 2) levels.count (skipSpaces t)
  if (skipSpaces rest).isEmpty then .ok v else .error .malformed

end AgdaFrontEnd.Json
