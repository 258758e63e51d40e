import AgdaFrontEnd.Disk.Resolve

/-!
# Reading and changing files

* `Disk.isFile`, `Disk.isDirectory`, `Disk.leadsSomewhere`: what a path leads to.
* `Disk.readText`: the text of a file, with line ends unified.
* `Disk.write`, `Disk.makeDirectory`, `Disk.makeLink`: single changes.  Each gives the changed file
  system or the reason why nothing was changed.
* `Change`: changes one after another.  What was done until one failed stays done.
* `Change.makeDirectories`: a directory with those on the way to it.
* `Change.removeTree`, `Change.remove`: a directory with all that lies below it.
-/

namespace AgdaFrontEnd

/-- Why a text was not read. -/
inductive ReadFault where
  | disk (fault : DiskFault)
  | undecodable (fault : Utf8.Fault)
  deriving DecidableEq, Repr

/-- A text in which every kind of line end is a line feed. -/
def unifyLineEnds : Text → Text
  | [] => []
  | '\r' :: '\n' :: r => '\n' :: unifyLineEnds r
  | c :: r => (if c = '\r' then '\n' else c) :: unifyLineEnds r

namespace Disk

/-! ## Looking -/

/-- The entry that a path leads to. -/
def stat (d : Disk) (p : Path) : Except DiskFault Entry := do
  match d.get? (← d.follow .found p) with
  | some e => return e
  | none => throw (.refused .noEntry p.toText)

/-- The causes that tell that a path leads nowhere. -/
def leadsNowhere : DiskFault → Bool
  | .refused .noEntry _ => true
  | .refused .notDirectory _ => true
  | .refused .tooManyLinks _ => true
  | .nullCharacter => true
  | _ => false

/-- Tests the entry that a path leads to; the test fails if it leads nowhere. -/
def test (d : Disk) (p : Path) (f : Entry → Bool) : Except DiskFault Bool :=
  match d.stat p with
  | .ok e => .ok (f e)
  | .error fault => if leadsNowhere fault then .ok false else .error fault

/-- The path leads to a file. -/
def isFile (d : Disk) (p : Path) : Except DiskFault Bool :=
  d.test p fun
    | .file _ => true
    | _ => false

/-- The path leads to a directory. -/
def isDirectory (d : Disk) (p : Path) : Except DiskFault Bool :=
  d.test p fun
    | .directory => true
    | _ => false

/-- The path leads to something. -/
def leadsSomewhere (d : Disk) (p : Path) : Except DiskFault Bool := d.test p fun _ => true

/-! ## Reading -/

/-- The bytes of a file. -/
def readBytes (d : Disk) (p : Path) : Except DiskFault Bytes := do
  match ← d.stat p with
  | .file content => return content
  | .directory => throw (.refused .isDirectory p.toText)
  | .link _ => throw (.refused .noEntry p.toText)

/-- The text of a file. -/
def readText (d : Disk) (p : Path) : Except ReadFault Text := do
  let bytes ← (d.readBytes p).mapError .disk
  let text ← (Utf8.decode bytes).mapError .undecodable
  return unifyLineEnds text

/-! ## Changing -/

/-- Writes a file, in the place of the one that is there. -/
def write (d : Disk) (p : Path) (content : Bytes) : Except DiskFault Disk := do
  let place ← d.follow .file p
  match d.get? place with
  | some .directory => throw (.refused .isDirectory p.toText)
  | _ => return d.put place (.file content)

/-- Makes a directory in one that exists. -/
def makeDirectory (d : Disk) (p : Path) : Except DiskFault Disk := do
  let place ← d.follow .name p
  match d.get? place with
  | some _ => throw (.refused .alreadyExists p.toText)
  | none => return d.put place .directory

/-- Makes a link, whose target need not exist but has to be a path. -/
def makeLink (d : Disk) (p : Path) (target : Text) : Except DiskFault Disk := do
  if target.contains '\x00' || p.toText.contains '\x00' then throw .nullCharacter
  if target.isEmpty then throw (.refusedLink .noEntry target p.toText)
  if pathLimit ≤ (Utf8.encode target).length then throw (.refusedLink .nameTooLong target p.toText)
  let place ← (d.follow .name p).mapError (DiskFault.ofLink target p.toText)
  match d.get? place with
  | some _ => throw (.refusedLink .alreadyExists target p.toText)
  | none => return d.put place (.link target)

end Disk

/-! ## Changes one after another -/

/-- Changes of a file system.  What was done until one failed stays done. -/
abbrev Change := ExceptT DiskFault (StateM Disk)

namespace Change

/-- A question to the file system. -/
def look (f : Disk → Except DiskFault α) : Change α := ExceptT.mk fun d => (f d, d)

/-- A single change. -/
def once (f : Disk → Except DiskFault Disk) : Change Unit := ExceptT.mk fun d =>
  match f d with
  | .ok d' => (.ok (), d')
  | .error fault => (.error fault, d)

/-- Passes over a fault of making a directory if the directory is there and `existing` allows it. -/
def forgive (existing : Bool) (p : Path) (fault : DiskFault) : Change Unit := do
  match fault with
  | .refused _ _ => if !existing || !(← look fun d => d.isDirectory p) then throw fault
  | _ => throw fault

/-- Makes a directory in one that exists.  It may be there already if `existing` allows it. -/
def makeDirectory (existing : Bool) (p : Path) : Change Unit :=
  tryCatch (once fun d => d.makeDirectory p) (forgive existing p)

/-- Makes a directory and the last `depth` ones on the way to it where they are missing. -/
def makeDirectoriesDepth (existing : Bool) : (depth : Nat) → Path → Change Unit
  | 0, p => makeDirectory existing p
  | depth + 1, p =>
    tryCatch (once fun d => d.makeDirectory p) fun fault => do
      match fault with
      | .refused .noEntry _ =>
        if p.parts.isEmpty then throw fault
        makeDirectoriesDepth true depth p.parent
        makeDirectory existing p
      | _ => forgive existing p fault

/-- Makes a directory and those on the way to it where they are missing.  The directory itself may
be there already if `existing` allows it. -/
def makeDirectories (existing : Bool) (p : Path) : Change Unit :=
  makeDirectoriesDepth existing p.parts.length p

/-- Removes the directory of a path with all that lies below it, where `place` is its place.  What
links in it lead to stays.  The directory itself goes last, by its path: that has to lead there
still, and to name it by other means than dots. -/
def removeDirectory (p : Path) (place : Place) : Change Unit := do
  modify fun d => d.clear place
  let place ← look fun d => d.follow .name p
  if p.parts.isEmpty then throw (.refused .invalidArgument p.toText)
  if p.name = ['.', '.'] then throw (.refused .notEmpty p.toText)
  modify fun d => d.erase place

/-- Removes a directory with all that lies below it. -/
def removeTree (p : Path) : Change Unit := do
  let place ← look fun d => d.follow .name p
  match (← get).get? place with
  | some .directory => removeDirectory p place
  | some (.file _) => throw (.refusedTree .notDirectory p.toText)
  | some (.link _) => throw .linkedTree
  | none => throw (.refused .noEntry p.toText)

/-- Removes a file, a link, or a directory with all that lies below it. -/
def remove (p : Path) : Change Unit := do
  let place ← look fun d => d.follow .name p
  match (← get).get? place with
  | some .directory => removeDirectory p place
  | some _ => modify fun d => d.erase place
  | none => throw (.refused .noEntry p.toText)

end Change

end AgdaFrontEnd
