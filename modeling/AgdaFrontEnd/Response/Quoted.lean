import AgdaFrontEnd.Text.Basic

/-!
# Quoted fields

The textual dialect writes a response as a parenthesised list in which fields are quoted strings.
Inside a string a backslash stands before a character that is meant as it is, or before the letter
of a line feed, a tab or a carriage return.  A backslash that ends the text stands for itself.

* `Quoted.scan`: the fields of a text, and whether its strings and parentheses are closed.
* `Quoted.write`: a field between quotes.
-/

namespace AgdaFrontEnd.Quoted

/-- The character that a backslash and `c` stand for. -/
def unescape (c : Char) : Char :=
  match c with
  | 'n' => '\n'
  | 't' => '\t'
  | 'r' => '\r'
  | c => c

/-- The fields found in a text and whether it is closed. -/
structure Scan where
  fields : List Text
  complete : Bool
  deriving DecidableEq, Repr

/-- The scan with one more field in front. -/
def Scan.cons (field : Text) (s : Scan) : Scan := ⟨field :: s.fields, s.complete⟩

mutual

/-- Scans a text that starts outside strings, `depth` parentheses being open. -/
def outside (depth : Int) : Text → Scan
  | [] => ⟨[], depth ≤ 0⟩
  | c :: r =>
    if c = '"' then inside depth [] r
    else if c = '(' then outside (depth + 1) r
    else if c = ')' then outside (depth - 1) r
    else outside depth r

/-- Scans a text that starts inside a string; `field` is what has been read of it, backwards. -/
def inside (depth : Int) (field : Text) : Text → Scan
  | [] => ⟨[], false⟩
  | ['\\'] => ⟨[], false⟩
  | '\\' :: e :: r => inside depth (unescape e :: field) r
  | c :: r =>
    if c = '"' then (outside depth r).cons field.reverse else inside depth (c :: field) r

end

/-- The fields of a text, and whether its strings are closed and its parentheses balanced. -/
def scan (t : Text) : Scan := outside 0 t

/-- How a character is written inside a string. -/
def escape (c : Char) : Text :=
  match c with
  | '\\' => ['\\', '\\']
  | '"' => ['\\', '"']
  | '\n' => ['\\', 'n']
  | '\t' => ['\\', 't']
  | '\r' => ['\\', 'r']
  | c => [c]

/-- A text with every character written as inside a string. -/
def escapeAll (t : Text) : Text := t.flatMap escape

/-- A field between quotes. -/
def write (field : Text) : Text := ['"'] ++ escapeAll field ++ ['"']

end AgdaFrontEnd.Quoted
