import AgdaFrontEnd.Disk.Basic

/-!
# Resolving paths

A resolved path is absolute and leads to its place without links and double dots.  What does not
exist stays in it as it is written, so every path can be resolved but for a circle of links, and a
path from a current directory that has been removed.

* `Disk.currentPath`: the path of the current directory.
* `Disk.resolve`: the resolved path.
-/

namespace AgdaFrontEnd

/-- The path one level up: without its last name, or with one more pair of dots where there is no
name to leave out. -/
def Path.up (p : Path) : Path :=
  match p.parts.getLast?, p.anchor with
  | none, .here | some ['.', '.'], _ => p.child ['.', '.']
  | _, _ => p.parent

namespace Disk

/-- Links by the paths on which they were met, with the paths that they lead to once these are
known; the newest entry comes first. -/
abbrev Links := List (Path × Option Path)

/-- Where resolving stands: the path reached, the links met, and whether a circle was met. -/
structure Resolved where
  path : Path
  links : Links
  circle : Bool

/-- The place of a path as it is written, double dots going up. -/
def placeAsWritten (d : Disk) (p : Path) : Place :=
  (p.parts.foldl (fun up name => if name = ['.', '.'] then up.tail else name :: up)
    (d.startOf p).reverse).reverse

/-- The target of the link that a path leads to. -/
def linkAt? (d : Disk) (p : Path) : Option Text :=
  match d.get? (d.placeAsWritten p) with
  | some (.link target) => some target
  | _ => none

/-- Where a link's target starts, seen from the directory of the link. -/
def Links.start (here : Path) (target : Text) : Path :=
  if target.head? = some '/' then ⟨.root, []⟩ else here

/-- A path with the names that are left on the way behind it, as they are written.  Where they start
with a repeated slash they are a path of their own. -/
def behind (p : Path) (names : List Text) : Path := p.join (Path.ofText (['/'].intercalate names))

/-- Resolves names from a path on.  A link that is met for the first time is resolved by `enter`;
one that is still being resolved closes a circle, and the rest is left as it is written. -/
def resolveNames (d : Disk) (enter : Links → Path → List Text → Except DiskFault Resolved) :
    Links → Path → List Text → Except DiskFault Resolved
  | links, here, [] => .ok ⟨here, links, false⟩
  | links, here, name :: rest =>
    if name = [] ∨ name = ['.'] then resolveNames d enter links here rest
    else if name = ['.', '.'] then resolveNames d enter links here.up rest
    else if name.contains '\x00' then .error .nullCharacter
    else match d.linkAt? (here.child name) with
      | none => resolveNames d enter links (here.child name) rest
      | some target =>
        match links.lookup (here.child name) with
        | some (some path) => resolveNames d enter links path rest
        | some none => .ok ⟨behind (here.child name) rest, links, true⟩
        | none =>
          match enter ((here.child name, none) :: links) (Links.start here target)
              (target.splitOn '/') with
          | .error f => .error f
          | .ok r =>
            if r.circle then .ok ⟨behind r.path rest, r.links, true⟩
            else resolveNames d enter ((here.child name, some r.path) :: r.links) r.path rest

/-- Resolves names with at most `depth` links inside one another. -/
def resolveDepth (d : Disk) : (depth : Nat) → Links → Path → List Text → Except DiskFault Resolved
  | 0, links, here, _ => .ok ⟨here, links, true⟩
  | depth + 1, links, here, names => resolveNames d (resolveDepth d depth) links here names

/-- The absolute path of a place. -/
def pathOf (p : Place) : Path := ⟨.root, p⟩

/-- The deepest nesting of links: each may be met on a path from the current directory, from one
above it, or from the root. -/
def linkDepth (d : Disk) : Nat := 4 * (d.entries.length + 1)

/-- The path of the current directory, also of one that has been removed since. -/
def home (d : Disk) : Path := pathOf d.current

/-- The path of the current directory. -/
def currentPath (d : Disk) : Except DiskFault Path :=
  if d.removed then .error .noCurrentDirectory else .ok d.home

/-- The resolved form of a path. -/
def resolve (d : Disk) (p : Path) : Except DiskFault Path := do
  if !p.isAbsolute && d.removed then
    throw (if p.toText.contains '\x00' then .nullCharacter else .noCurrentDirectory)
  let start : Path := ⟨if p.isAbsolute then .root else .here, []⟩
  let r ← resolveDepth d d.linkDepth [] start p.parts
  let anchor := if r.path.anchor = .doubleRoot then .doubleRoot else .root
  let resolved : Path := ⟨anchor, d.placeAsWritten r.path⟩
  match d.follow .found resolved with
  | .error (.refused .tooManyLinks path) => .error (.circle path)
  | .error .nullCharacter => .error .nullCharacter
  | _ => return resolved

end Disk

end AgdaFrontEnd
