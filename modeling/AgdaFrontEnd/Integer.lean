import AgdaFrontEnd.Text.Blank
import AgdaFrontEnd.Text.Digit
import AgdaFrontEnd.Text.Quoted

/-!
# Integers in texts

An integer is written as an optional sign and decimal digits of any script.  Single underscores
may stand between digits and blanks around the whole.  No more than 4300 digits are read.

* `Digits.value`: the number that a list of digits spells.
* `Integer.ofText`: reading, with `IntegerFault` for a text that cannot be read.
* `Integer.ofDigits`: reading a bare run of digits.
-/

namespace AgdaFrontEnd

/-- Why a text was not read as an integer. -/
inductive IntegerFault where
  /-- The text is not an integer. -/
  | malformed (t : Text)
  /-- The integer has more digits than are read. -/
  | tooManyDigits (count : Nat)
  deriving DecidableEq, Repr

namespace IntegerFault

/-- The most digits that an integer may have; leading zeros count. -/
def digitLimit : Nat := 4300

/-- The longest quotation of a malformed integer. -/
def quotationLimit : Nat := 200

/-- The wording of a fault. -/
def message : IntegerFault → Text
  | malformed t => "invalid literal for int() with base 10: ".toList ++ t.quoted.take quotationLimit
  | tooManyDigits count =>
    "Exceeds the limit (4300 digits) for integer string conversion: value has ".toList ++
      Text.ofNat count ++
      " digits; use sys.set_int_max_str_digits() to increase the limit".toList

end IntegerFault

/-- The number that decimal digits spell, most significant first. -/
def Digits.value (ds : List Nat) : Nat := ds.foldl (fun n d => 10 * n + d) 0

namespace Integer

open IntegerFault

/-- The number spelled by digits, unless they are too many. -/
def ofDigits (ds : List Nat) : Except IntegerFault Nat :=
  if digitLimit < ds.length then .error (.tooManyDigits ds.length) else .ok (Digits.value ds)

/-- Blanks that may stand around an integer: the ASCII separators of files, groups, records and
units are not among them. -/
def isMargin (c : Char) : Bool := isBlank c && !(0x1C ≤ c.toNat && c.toNat ≤ 0x1F)

/-- The digits at the start of a text, single underscores between them left out, and the rest;
nothing if an underscore does not stand between two digits.  `open_` tells that a digit has just
been read. -/
def scanDigits (open_ : Bool) : Text → Option (List Nat × Text)
  | [] => some ([], [])
  | c :: r =>
    match digitValue? c with
    | some d => (scanDigits true r).map fun (ds, rest) => (d :: ds, rest)
    | none =>
      if c = '_' then
        match r with
        | d :: _ => if open_ && isDigit d then scanDigits false r else none
        | [] => none
      else some ([], c :: r)

/-- Reads an integer. -/
def ofText (t : Text) : Except IntegerFault Int :=
  let body := t.dropWhile isMargin
  let (negative, body) :=
    match body with
    | '-' :: r => (true, r)
    | '+' :: r => (false, r)
    | _ => (false, body)
  match scanDigits false body with
  | none | some ([], _) => .error (.malformed t)
  | some (ds, rest) => do
    let n ← ofDigits ds
    if rest.all isMargin then .ok (if negative then -n else n) else .error (.malformed t)

end Integer

end AgdaFrontEnd
