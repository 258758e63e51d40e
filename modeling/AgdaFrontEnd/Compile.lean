import AgdaFrontEnd.Json.Writer
import AgdaFrontEnd.Session

/-!
# Compiling

A source file is compiled to an executable, or to a package that is run by a script interpreter.

* `Compile.runProgram`: one process to its end.
* `Compile.native`: the executable.
* `Package.write`: the two files that make a directory of compiled modules a package.
* `Compile.package`: the package, made from scratch.
-/

namespace AgdaFrontEnd

namespace Compile

/-- The start of a program.  What the system refuses on the way is told as a failed start. -/
def starting (program : Text) (a : Act Unit) : Act Unit :=
  tryCatch a fun failure =>
    throw (match failure with
      | .disk fault => (fault.reason?.map (.notStarted program)).getD failure
      | _ => failure)

/-- Runs a program in a directory to its end.  The system looks for the program from there. -/
def runProgram (program : Text) (args : List Text) (directory : Path) : Act Unit := do
  Act.note (.running (program :: args))
  let script := (← get).script
  let request := [' '].intercalate (program :: args)
  match script.startFault? program request with
  | some fault => throw (.notStarted program fault.reason)
  | none =>
    let process ← Act.start (program :: args) (some directory)
    let rule := script.ruleFor request
    starting program (Act.perform directory rule.effects)
    Act.note (.exited process rule.exitCode)
    Act.note (.collected process)
    if rule.exitCode ≠ 0 then throw (.exited rule.exitCode [])

/-- The directory of the sources that are generated on the way to an executable. -/
def generatedDirectory : Text := "MAlonzo".toList

/-- Removes the generated sources if they are there. -/
def removeGenerated (directory : Path) : Act Unit :=
  modify fun w =>
    { w with disk := ((Change.removeTree (directory.child generatedDirectory)).run w.disk).2 }

/-- The directory to work in: the current one unless another one is given. -/
def workPath (directory : Option Path) (d : Disk) : Except DiskFault Path :=
  match directory with
  | some p => .ok p
  | none => d.currentPath

/-- Looks for the directory to work in. -/
def workDirectory (directory : Option Path) : Act Path := Act.look (workPath directory)

/-- Compiles a file to an executable, runs it if that is wanted, and gives its path. -/
def native (file : Path) (run : Bool) (prover : Option Text) (directory : Option Path) : Act Path := do
  let directory ← workDirectory directory
  runProgram (Session.programOr prover)
    ["--compile".toList, "--no-libraries".toList, file.toText] directory
  removeGenerated directory
  let executable := directory.join (Path.ofText file.stem)
  if run then runProgram executable.toText [] directory
  return executable

end Compile

namespace Package

/-- The name of the script that runs a package. -/
def scriptName : Text := "main.js".toList

/-- The name of the description of a package. -/
def descriptionName : Text := "package.json".toList

/-- The script that runs a module. -/
def script (module : Text) : Text :=
  "require('./node_modules/jAgda.".toList ++ module ++ "').main()".toList

/-- The description of a package. -/
def description (name : Text) : Json :=
  .object
    [("name".toList, .string name),
     ("version".toList, .string "1.0.0".toList),
     ("main".toList, .string scriptName),
     ("bin".toList, .object [(name, .string ("./".toList ++ scriptName))]),
     ("dependencies".toList, .object [])]

/-- The text of the description. -/
def descriptionText (name : Text) : Text := (description name).toText (.indented 2)

/-- Writes the script that runs a module. -/
def writeScript (directory : Path) (module : Text) (d : Disk) : Except DiskFault Disk :=
  d.write (directory.child scriptName) (Utf8.encode (script module))

/-- Writes the description of the package in a directory. -/
def writeDescription (directory : Path) (d : Disk) : Except DiskFault Disk :=
  d.write (directory.child descriptionName) (Utf8.encode (descriptionText directory.name))

/-- Writes the two files of a package. -/
def writeFiles (directory : Path) (module : Text) : Change Unit := do
  Change.once (writeScript directory module)
  Change.once (writeDescription directory)

/-- Writes the script and the description of a package. -/
def write (directory : Path) (module : Text) : Act Unit := Act.change (writeFiles directory module)

end Package

namespace Compile

/-- The directory of the compiled modules in a package. -/
def modulesDirectory : Text := "node_modules".toList

/-- The directory of the package that a file is compiled into. -/
def packagePath (directory file : Path) : Path := directory.join (Path.ofText file.packageName)

/-- Makes the directory of a package from scratch. -/
def makeFresh (out : Path) : Change Unit := do
  if ← Change.look fun d => d.leadsSomewhere out then Change.removeTree out
  Change.makeDirectories false (out.child modulesDirectory)

/-- The arguments that ask for a package. -/
def packageArgs (out file : Path) : List Text :=
  ["--js".toList, "--js-cjs".toList, "--js-optimize".toList, "--no-libraries".toList,
   "--compile-dir=".toList ++ (out.child modulesDirectory).toText, file.toText]

/-- Compiles a file to a package and gives the package's directory, which is made from scratch. -/
def package (file : Path) (prover : Option Text) (directory : Option Path) : Act Path := do
  let directory ← workDirectory directory
  let out := packagePath directory file
  Act.change (makeFresh out)
  runProgram (Session.programOr prover) (packageArgs out file) directory
  Package.write out file.stem
  return out

end Compile

end AgdaFrontEnd
