import AgdaFrontEnd.World.Failure
import AgdaFrontEnd.World.Journal

/-!
# The world

The world is what a run can see and change: the file system, the behaviour of the programs, and the
journal of all that has happened.  Around it are bounds that a run meets and does not set.

* `Surroundings`: the bounds.
* `World`: the state of things.
* `Act`: an activity in the world.  It may fail; what it did until then stays done.
* `Act.note`, `Act.print`, `Act.complain`: entries in the journal.
* `Act.name`, `Act.isDirectory`: paths that were named from outside.
* `Act.look`, `Act.change`: access to the file system.
-/

namespace AgdaFrontEnd

/-- What the surroundings of a run do not take. -/
structure Surroundings where
  /-- How deep the values in an answer are read: one number, though the places in the program that an
  answer is read from are a few calls apart. -/
  levels : Json.Levels := .usual
  /-- Why the output does not take a text, if its encoding has no form for it. -/
  outputFault : Text → Option Text := fun _ => none
  /-- Why the file system does not take a path, if its encoding has no form for it. -/
  pathFault : Path → Option Text := fun _ => none

/-- The state of things. -/
structure World where
  disk : Disk := {}
  script : Script := {}
  journal : Journal := []
  /-- The number of the next process. -/
  next : Nat := 1
  surroundings : Surroundings := {}

/-- Whether a path that was named from outside leads to a directory; one that the file system does not
take leads nowhere. -/
def World.isDirectory (w : World) (p : Path) : Except DiskFault Bool :=
  match w.surroundings.pathFault p with
  | some _ => .ok false
  | none => w.disk.isDirectory p

/-- An activity in the world. -/
abbrev Act := ExceptT Failure (StateM World)

namespace Act

/-- Enters an event in the journal. -/
def note (e : Event) : Act Unit := modify fun w => { w with journal := w.journal ++ [e] }

/-- Prints a text as a line, all of it or nothing. -/
def print (t : Text) : Act Unit := do
  match (← get).surroundings.outputFault t with
  | some wording => throw (.unencodable wording)
  | none => note (.printed (t ++ ['\n']))

/-- Writes a text as a line of the error output. -/
def complain (t : Text) : Act Unit := note (.complained (t ++ ['\n']))

/-- Asks the file system. -/
def look (f : Disk → Except DiskFault α) : Act α := do
  match f (← get).disk with
  | .ok a => return a
  | .error fault => throw (.disk fault)

/-- Gives the file system a path that was named from outside. -/
def name (p : Path) : Act Unit := do
  match (← get).surroundings.pathFault p with
  | some wording => throw (.unencodable wording)
  | none => return

/-- Asks whether a path that was named from outside leads to a directory. -/
def isDirectory (p : Path) : Act Bool := do
  match (← get).isDirectory p with
  | .ok found => return found
  | .error fault => throw (.disk fault)

/-- Changes the file system. -/
def change (c : Change Unit) : Act Unit := ExceptT.mk fun w =>
  let (r, disk) := c.run w.disk
  (r.mapError .disk, { w with disk })

/-- Reads the text of a file; a file that cannot be read is noted and counts as empty. -/
def readSource (p : Path) : Act Text := do
  match (← get).disk.readText p with
  | .ok t => return t
  | .error (.disk .nullCharacter) => throw (.disk .nullCharacter)
  | .error (.disk fault) => do
    note (.unreadable p.toText fault.message)
    return []
  | .error (.undecodable fault) => throw (.undecodable fault)

/-- Performs the changes of a process that runs in the directory `base`. -/
def perform (base : Path) (es : List Effect) : Act Unit := change (Effect.performAll base es)

/-- Gives a started process its number. -/
def start (argv : List Text) (directory : Option Path) : Act Nat := do
  let process := (← get).next
  modify fun w => { w with next := process + 1 }
  note (.started process argv directory)
  return process

end Act

end AgdaFrontEnd
