import AgdaFrontEnd.Text.LowerCase

/-!
# Paths

A path is an anchor and the names on the way from it.  Repeated slashes and single dots are left
out when a path is read, double dots are kept.

* `Path.ofText`, `Path.toText`: reading and writing.
* `Path.join`, `Path.parent`, `Path.name`, `Path.stem`: parts and compositions.
* `Path.packageName`: the name of the package that a source file is compiled into.
-/

namespace AgdaFrontEnd

/-- Where a path starts. -/
inductive Anchor where
  /-- At the current directory. -/
  | here
  /-- At the root. -/
  | root
  /-- At the root, written with two slashes. -/
  | doubleRoot
  deriving DecidableEq, Repr

/-- A path: its anchor and the names on the way. -/
structure Path where
  anchor : Anchor
  parts : List Text
  deriving DecidableEq, Repr

namespace Path

/-- The names between slashes, without empty ones and single dots. -/
def partsOf (t : Text) : List Text := (t.splitOn '/').filter fun p => p ≠ [] ∧ p ≠ ['.']

/-- Reads a path. -/
def ofText (t : Text) : Path :=
  let anchor :=
    match t with
    | '/' :: '/' :: '/' :: _ => .root
    | '/' :: '/' :: _ => .doubleRoot
    | '/' :: _ => .root
    | _ => .here
  ⟨anchor, partsOf t⟩

/-- Writes a path; the current directory is a single dot. -/
def toText (p : Path) : Text :=
  match p.anchor, p.parts with
  | .here, [] => ['.']
  | .here, ps => ['/'].intercalate ps
  | .root, ps => '/' :: ['/'].intercalate ps
  | .doubleRoot, ps => '/' :: '/' :: ['/'].intercalate ps

/-- The path starts at the root. -/
def isAbsolute (p : Path) : Bool := p.anchor ≠ .here

/-- `q` as seen from `p`. -/
def join (p q : Path) : Path := if q.isAbsolute then q else ⟨p.anchor, p.parts ++ q.parts⟩

/-- A name directly below a path. -/
def child (p : Path) (name : Text) : Path := ⟨p.anchor, p.parts ++ [name]⟩

/-- The path without its last name. -/
def parent (p : Path) : Path := ⟨p.anchor, p.parts.dropLast⟩

/-- The last name; empty if there is none. -/
def name (p : Path) : Text := p.parts.getLast?.getD []

/-- A name without its last suffix.  A dot at either end of the name starts no suffix. -/
def stemOf (name : Text) : Text :=
  let suffix := name.reverse.takeWhile (· ≠ '.')
  match name.reverse.dropWhile (· ≠ '.') with
  | '.' :: stem => if stem.isEmpty || suffix.isEmpty then name else stem.reverse
  | _ => name

/-- The last name without its suffix. -/
def stem (p : Path) : Text := stemOf p.name

/-- The name of the package that a source file is compiled into: its stem in lower case, with
underscores for dots. -/
def packageName (file : Path) : Text :=
  Text.toLower (file.stem.map fun c => if c = '.' then '_' else c)

end Path

end AgdaFrontEnd
