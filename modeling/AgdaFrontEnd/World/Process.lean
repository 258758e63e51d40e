import AgdaFrontEnd.Disk.Access

/-!
# Processes

How the programs behave that are started from here is given by a script.  What happens to a
request, which is a command or the arguments of a program, is said by the first rule whose pattern
occurs in it: the process does not start, or it does not get its input, or it changes files, writes
to its outputs and ends with an exit code.  A script may also say that a program never starts and
that no process takes its input.

* `StartFault`, `InputFault`: why a process does not start, or does not get its input.
* `Script`: the rules, and the faults of all requests.
* `Script.ruleFor`, `Script.startFault?`, `Script.inputFault?`: what is said of a request.
* `Effect.perform`, `Effect.performAll`: changes of files.
-/

namespace AgdaFrontEnd

/-- A change of files by a process. -/
inductive Effect where
  | write (path : Text) (content : Bytes)
  | makeDirectory (path : Text)
  | remove (path : Text)
  | link (path target : Text)
  deriving DecidableEq, Repr

/-- A change by a process that runs in the directory `base`. -/
def Effect.perform (base : Path) : Effect → Change Unit
  | .write path content => do
    let p := base.join (Path.ofText path)
    Change.makeDirectories true p.parent
    Change.once fun d => d.write p content
  | .makeDirectory path => Change.makeDirectories true (base.join (Path.ofText path))
  | .remove path => Change.remove (base.join (Path.ofText path))
  | .link path target => Change.once fun d => d.makeLink (base.join (Path.ofText path)) target

/-- Changes one after another, by a process that runs in the directory `base`. -/
def Effect.performAll (base : Path) : List Effect → Change Unit
  | [] => return
  | e :: es => do
    e.perform base
    performAll base es

/-- Why a program does not start. -/
inductive StartFault where
  /-- A cause of the system, by its number and wording. -/
  | system (number : Int) (wording : Text)
  /-- A cause in words. -/
  | words (wording : Text)
  deriving DecidableEq, Repr

/-- The reason that is reported. -/
def StartFault.reason : StartFault → Text
  | .system number wording =>
    if wording.isEmpty then "[Errno ".toList ++ Text.ofInt number ++ "] ".toList else wording
  | .words wording => wording

/-- Why a process does not get its input. -/
inductive InputFault where
  /-- It does not take what is written to it. -/
  | notTaken (wording : Text)
  /-- The input has no encoded form: it names a file whose name is not text. -/
  | unencodable (wording : Text)
  deriving DecidableEq, Repr

/-- How a process behaves. -/
structure Rule where
  /-- What must occur in the request for the rule to apply. -/
  pattern : Text := []
  stdout : Bytes := []
  /-- The error output, in the pieces in which it is written. -/
  stderr : List Bytes := []
  exitCode : Int := 0
  effects : List Effect := []
  /-- Why the process does not start, if it does not. -/
  startFault : Option StartFault := none
  /-- Why the process does not get its input, if it does not. -/
  inputFault : Option InputFault := none
  deriving DecidableEq, Repr

/-- How the programs behave that are started. -/
structure Script where
  rules : List Rule := []
  /-- The programs that never start. -/
  startFaults : List (Text × StartFault) := []
  /-- Why no process takes its input, if none does. -/
  inputFault : Option Text := none
  deriving DecidableEq, Repr

namespace Script

/-- The rule that answers a request; a process without a rule does nothing and succeeds. -/
def ruleFor (s : Script) (request : Text) : Rule :=
  (s.rules.find? fun r => request.hasWord r.pattern).getD {}

/-- Why a program does not start for a request. -/
def startFault? (s : Script) (program request : Text) : Option StartFault :=
  (s.startFaults.lookup program).or (s.ruleFor request).startFault

/-- Why the process for a request does not get its input. -/
def inputFault? (s : Script) (request : Text) : Option InputFault :=
  (s.inputFault.map .notTaken).or (s.ruleFor request).inputFault

end Script

/-- The most bytes of error output that are read at once. -/
def readSize : Nat := 65536

/-- A piece of output cut into reads of at most `n + 1` bytes, at most `fuel` of them. -/
def cutReads (n : Nat) : (fuel : Nat) → Bytes → List Bytes
  | 0, _ => []
  | fuel + 1, bs => if bs.isEmpty then [] else bs.take (n + 1) :: cutReads n fuel (bs.drop (n + 1))

/-- The reads that bring in the error output of a process, none of them empty. -/
def Rule.reads (r : Rule) : List Bytes :=
  r.stderr.flatMap fun piece => cutReads (readSize - 1) piece.length piece

end AgdaFrontEnd
