import AgdaFrontEnd.Text.Basic

/-!
# Styles of terminal text

Terminal text is styled by escape sequences: the escape character, an opening bracket, parameters
and a letter.

* `Palette`: the codes in use.  `Palette.terminal` has those of a terminal; in `Palette.plain` all
  are empty, so what is written with it is text alone.
* `Colour.ofName`: a colour by its name; any other text is taken as a code itself.
* `Text.stripStyles`: a text without its escape sequences.
-/

namespace AgdaFrontEnd

/-- A colour. -/
inductive Colour where
  | red
  | green
  /-- The colour that a code switches on. -/
  | code (code : Text)
  deriving DecidableEq, Repr

/-- The colour of a name; another text is a code. -/
def Colour.ofName (name : Text) : Colour :=
  if name = "red".toList then red else if name = "green".toList then green else code name

/-- The codes that switch styles on, and the one that switches all of them off. -/
structure Palette where
  bold : Text
  dim : Text
  underline : Text
  red : Text
  green : Text
  reset : Text
  deriving DecidableEq, Repr

namespace Palette

/-- The codes of a terminal. -/
def terminal : Palette where
  bold := "\x1b[1m".toList
  dim := "\x1b[2m".toList
  underline := "\x1b[4m".toList
  red := "\x1b[31m".toList
  green := "\x1b[32m".toList
  reset := "\x1b[0m".toList

/-- No codes. -/
def plain : Palette := ⟨[], [], [], [], [], []⟩

/-- The code of a colour. -/
def colour (p : Palette) : Colour → Text
  | .red => p.red
  | .green => p.green
  | .code code => code

/-- A text in one colour. -/
def coloured (p : Palette) (colour : Colour) (text : Text) : Text :=
  p.colour colour ++ text ++ p.reset

end Palette

namespace Text

/-- The character may stand among the parameters of an escape sequence. -/
def isParameter (c : Char) : Bool := '0' ≤ c && c ≤ '9' || c = ';' || c = '?'

/-- The character ends an escape sequence. -/
def isFinal (c : Char) : Bool := 'A' ≤ c && c ≤ 'Z' || 'a' ≤ c && c ≤ 'z'

/-- The length of the escape sequence at the start of a text. -/
def sequenceLength? : Text → Option Nat
  | '\x1b' :: '[' :: r =>
    match r.dropWhile isParameter with
    | c :: _ => if isFinal c then some ((r.takeWhile isParameter).length + 3) else none
    | [] => none
  | _ => none

/-- The text after its first `skip` characters, without its escape sequences. -/
def stripFrom : (skip : Nat) → Text → Text
  | _, [] => []
  | skip + 1, _ :: r => stripFrom skip r
  | 0, c :: r =>
    match sequenceLength? (c :: r) with
    | some n => stripFrom (n - 1) r
    | none => c :: stripFrom 0 r

/-- The text without its escape sequences. -/
def stripStyles (t : Text) : Text := stripFrom 0 t

end Text

end AgdaFrontEnd
