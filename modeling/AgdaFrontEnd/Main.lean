import AgdaFrontEnd.CommandLine.Run
import AgdaFrontEnd.World.Transcript

/-!
# The program

Runs the command line on the source files below the current directory, with a transcript of the
prover on standard input, and writes what the journal of the run shows.  The files themselves stay
as they are.

* `Outside.entries`, `Outside.disk`: the source files and directories that are there.
* `main`: the program.
-/

namespace AgdaFrontEnd.Outside

/-- The directories, source files and links among what was found at a place, and below it. -/
partial def entries (place : Place) (found : Array IO.FS.DirEntry) : IO (List (Place × Entry)) := do
  let mut known := []
  for e in found do
    let name := e.fileName.toList
    match (← e.path.symlinkMetadata).type with
    | .dir =>
      known := (place ++ [name], .directory) :: known ++
        (← entries (place ++ [name]) (← e.path.readDir))
    | .file =>
      if Text.endsWith name sourceSuffix then
        known := (place ++ [name], .file (← IO.FS.readBinFile e.path).toList) :: known
    | .symlink =>
      if ← e.path.pathExists then
        known := (place ++ [name], .link (← IO.FS.realPath e.path).toString.toList) :: known
    | .other => pure ()
  return known

/-- The file system as far as the program sees it: the way to the current directory and what lies
below that. -/
def disk : IO Disk := do
  let here ← IO.currentDir
  let place := (Path.ofText here.toString.toList).parts
  let way := (List.range place.length).map fun n => (place.take (n + 1), Entry.directory)
  return { entries := way ++ (← entries place (← here.readDir)), current := place }

/-- What comes in on standard input; nothing from a terminal. -/
def input : IO Bytes := do
  if ← (← IO.getStdin).isTty then return []
  let mut bytes := ByteArray.empty
  let mut piece ← (← IO.getStdin).read 65536
  while !piece.isEmpty do
    bytes := bytes ++ piece
    piece ← (← IO.getStdin).read 65536
  return bytes.toList

end AgdaFrontEnd.Outside

open AgdaFrontEnd in
/-- Runs the command line and gives its exit code. -/
def main (args : List String) : IO UInt32 := do
  let world : World := { disk := ← Outside.disk, script := .ofTranscript (← Outside.input) }
  let (outcome, world) := (CommandLine.run (args.map String.toList)).run world
  IO.print (String.ofList (Journal.stdout world.journal))
  let time := toString (← IO.monoMsNow)
  IO.eprint (String.ofList (Journal.stderr time.toList world.journal))
  match outcome with
  | .ok code => return code.toUInt32
  | .error failure =>
    IO.eprintln (String.ofList failure.message)
    return 1
