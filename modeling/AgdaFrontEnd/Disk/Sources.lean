import AgdaFrontEnd.Disk.Access

/-!
# Finding source files

The source files below a directory are found by walking through it.  The walk enters directories,
hidden ones too, but no links; a link to a file is found like a file.  It looks at what every link
leads to all the same, whatever its name is.  A link that leads nowhere is passed over, and one that
cannot be followed for another cause ends the walk.

* `Disk.children`: the entries of a directory.
* `Path.listed`: how an entry is spelled in the listing of its directory.
* `Disk.sourcesBelow`: the source files of a directory and of those below it.
* `Disk.sources`: the same for any path, in the order of the parts.
-/

namespace AgdaFrontEnd

/-- The end of a source file's name. -/
def sourceSuffix : Text := ".agda".toList

/-- The spelling of an entry in the listing of a directory: its name behind the directory's path,
that of the current directory too. -/
def Path.listed (directory : Path) (name : Text) : Text :=
  let path := directory.toText
  if path.getLast? = some '/' then path ++ name else path ++ '/' :: name

namespace Disk

/-- The entries of the directory at a place, with their names; what was put there last comes last. -/
def children (d : Disk) (place : Place) : List (Text × Entry) :=
  d.entries.reverse.filterMap fun (p, e) =>
    match p.getLast? with
    | some name => if p.dropLast = place then some (name, e) else none
    | none => none

/-- Looks at what an entry of a directory leads to.  A fault is told of the entry as it is listed. -/
def lookBehind (d : Disk) (directory : Path) (name : Text) : Except DiskFault Bool :=
  (d.leadsSomewhere (directory.child name)).mapError (.spelled (directory.listed name))

/-- The source files in a directory and at most `depth` levels below.  Those in the directory itself
come first. -/
def sourcesBelow (d : Disk) : (depth : Nat) → (directory : Path) → Except DiskFault (List Path)
  | 0, _ => .ok []
  | depth + 1, directory => do
    let entries := d.children (← d.follow .found directory)
    let named := entries.filter fun (name, _) => Text.endsWith name sourceSuffix
    let here ← (named.map fun (name, _) => directory.child name).filterM d.isFile
    let below ← entries.mapM fun (name, e) => do
      match e with
      | .directory => sourcesBelow d depth (directory.child name)
      | .link _ =>
        discard (d.lookBehind directory name)
        return []
      | .file _ => return []
    return here ++ below.flatten

/-- Paths are ordered by their parts, and parts by their code points. -/
def partsLE (p q : Path) : Bool := (compare p.parts q.parts).isLE

/-- The source files below a directory, in order; none if the path leads to no directory. -/
def sources (d : Disk) (root : Path) : Except DiskFault (List Path) := do
  if ← d.isDirectory root then
    let files ← d.sourcesBelow (d.entries.length + 1) root
    return files.mergeSort partsLE
  else return []

end Disk

end AgdaFrontEnd
