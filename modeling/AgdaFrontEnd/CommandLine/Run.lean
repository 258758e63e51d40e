import AgdaFrontEnd.CommandLine.Options
import AgdaFrontEnd.Compile
import AgdaFrontEnd.Tools

/-!
# Running the command line

* `CommandLine.perform`: a request, with its exit code.
* `CommandLine.run`: the whole program, from its arguments to its exit code.
-/

namespace AgdaFrontEnd.CommandLine

/-- The mode that options ask for. -/
def modeOf (o : CheckOptions) (evaluate : Bool) : Mode where
  quiet := o.quiet
  interactive := o.interactive
  evaluate := evaluate
  dialect := if o.text then .text else .json

/-- Checks a file, and evaluates its entry point if that is wanted.  The report of a failed check
goes to the error output; before a result it is printed only if it has blocks. -/
def check (prover : Option Text) (o : CheckOptions) (evaluate : Bool) : Act Nat := do
  let r ← Tools.checkFile prover o.path (modeOf o evaluate)
  if r.failed then
    Act.complain r.text
    return 1
  if evaluate then
    if !r.blocks.isEmpty then Act.print r.text
    Act.print (Tools.shownResult r)
  else Act.print r.text
  return 0

/-- Checks the files below a directory. -/
def checkAll (prover : Option Text) (directory : Text) (text : Bool) : Act Nat := do
  let mode := Tools.quietMode text false
  let r ← Tools.atDesk (Tools.checkerFor prover mode) (Batch.run directory mode)
  Act.print (r.text .terminal)
  return if r.failed then 1 else 0

/-- Compiles a file to an executable. -/
def compile (prover : Option Text) (path : Option Text) (run : Bool) : Act Nat := do
  let file ← sourceArgument path
  Act.print "Compiling Agda file...".toList
  let executable ← Compile.native file run prover none
  if !run then
    Act.print ("Successfully compiled ".toList ++ path.getD [] ++ " to ".toList ++ executable.name)
    Act.print ("You can now run the executable with: ./".toList ++ executable.name)
  return 0

/-- Compiles a file to a package. -/
def package (prover : Option Text) (path : Option Text) : Act Nat := do
  let file ← sourceArgument path
  let out ← Compile.package file prover none
  Act.print ("Successfully compiled ".toList ++ path.getD [] ++ " to ".toList ++ out.name ++ ['/'])
  Act.print "You can now:".toList
  Act.print ("1. cd ".toList ++ out.name)
  Act.print "2. npm install".toList
  Act.print "3. node main.js".toList
  return 0

/-- The name of a transport. -/
def transportName (t : Transport) : Text :=
  ((transports.find? fun x => x.2 = t).map (·.1)).getD []

/-- A setting of the server as it is shown. -/
def shownSetting (setting : Option Text) : Text := setting.getD "[]".toList

/-- Starts the tool server. -/
def serve (e : Endpoint) : Act Nat := do
  if e.transport ≠ some .stdio then
    Act.complain ("Agda MCP server starting on ".toList ++ shownSetting e.host ++ [':'] ++
      shownSetting (e.port.map Text.ofInt) ++ " (".toList ++
      shownSetting (e.transport.map transportName) ++ [')'])
  Act.note (.served e)
  return 0

/-- Performs a request. -/
def perform (prover : Option Text) : Request → Act Nat
  | .check o => check prover o false
  | .run o => check prover o true
  | .checkAll none _ | .checkAll (some []) _ => do
    Act.complain "Usage: agda-cli checkAll <directory>".toList
    return 1
  | .checkAll (some directory) text => checkAll prover directory text
  | .compile path run => compile prover path run
  | .package path => package prover path
  | .serve endpoint => serve endpoint

/-- How a command is used, after a fault of its argument. -/
def usageLine : Request → Text
  | .check _ => "Usage: agda-cli check <file.agda>".toList
  | .run _ => "Usage: agda-cli run <file.agda>".toList
  | .checkAll _ _ => "Usage: agda-cli checkAll <directory>".toList
  | .compile _ _ => "Usage: agda-cli compile <file.agda>".toList
  | .package _ => "Usage: agda-cli js <file.agda>".toList
  | .serve _ => []

/-- What is written for a failure that is reported. -/
def failureText (request : Request) : Failure → Text
  | .usage fault => fault.message ++ ['\n'] ++ usageLine request
  | failure => "Error: ".toList ++ failure.message

/-- Performs a request and reports its failure. -/
def performReported (prover : Option Text) (request : Request) : Act Nat := ExceptT.mk fun w =>
  match (perform prover request).run w with
  | (.error failure, w) =>
    if failure.isReported then
      (do
        Act.complain (failureText request failure)
        return 1 : Act Nat).run w
    else (.error failure, w)
  | r => r

/-- Runs the program with its arguments and gives its exit code. -/
def run (args : List Text) : Act Nat := do
  match Invocation.ofArguments args with
  | .error (.help text) => do
    Act.note (.printed text)
    return 0
  | .error (.misuse usage program message) => do
    Act.note (.complained usage)
    Act.complain (program ++ ": error: ".toList ++ message)
    return 1
  | .ok ⟨prover, verbose, request⟩ => do
    if verbose then Act.note .detailed
    match request with
    | none => do
      Act.note (.complained Usage.topUsage)
      return 1
    | some request => performReported prover request

end AgdaFrontEnd.CommandLine
