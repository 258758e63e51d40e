import AgdaFrontEnd.Path
import AgdaFrontEnd.Text.Blank

/-!
# The journal

All that happens outside the program's own state goes into one journal, in order: what is printed,
what is logged, and what becomes of the processes.  Everything that can be observed of a run is a
view of its journal.

* `Event`: what can happen.
* `Journal.stdout`, `Journal.stderr`: the two outputs.
* `Journal.starts`: the processes started, with what was written to them.
* `Journal.Start.program?`: the file that is started.
* `Journal.lifeCycle`: when processes started and ended.
* `Journal.commands`: the commands handed to a session.
-/

namespace AgdaFrontEnd

/-- How the tool server is reached. -/
inductive Transport where
  | stdio
  | http
  | sse
  deriving DecidableEq, Repr

/-- Where the tool server is reached.  A setting is missing if it was given without a value. -/
structure Endpoint where
  transport : Option Transport := some .stdio
  host : Option Text := some "127.0.0.1".toList
  port : Option Int := some 8000
  deriving DecidableEq, Repr

/-- What can happen.  Processes are known by their numbers. -/
inductive Event where
  /-- A text was printed. -/
  | printed (t : Text)
  /-- A text was written to the error output. -/
  | complained (t : Text)
  /-- Detailed logging was switched on. -/
  | detailed
  /-- A session was given its `number`-th command. -/
  | command (number : Nat) (t : Text)
  /-- A process wrote to its error output. -/
  | overheard (t : Text)
  /-- The holes of a file were counted. -/
  | counted (file : Text) (holes : Nat)
  /-- A file could not be read. -/
  | unreadable (file : Text) (reason : Text)
  /-- A file failed in a batch. -/
  | batchFailed (file : Text) (reason : Text)
  /-- A program is about to be run. -/
  | running (argv : List Text)
  /-- A process started. -/
  | started (process : Nat) (argv : List Text) (directory : Option Path)
  /-- A process got its input. -/
  | input (process : Nat) (t : Text)
  /-- A process ended. -/
  | exited (process : Nat) (code : Int)
  /-- The exit code of a process was taken note of. -/
  | collected (process : Nat)
  /-- The tool server was started. -/
  | served (endpoint : Endpoint)
  deriving DecidableEq, Repr

/-- How severe a log record is. -/
inductive Severity where
  | debug
  | error
  deriving DecidableEq, Repr

/-- A log record. -/
structure LogRecord where
  severity : Severity
  source : Text
  message : Text
  deriving DecidableEq, Repr

/-- The record that an event is logged with. -/
def Event.log? : Event → Option LogRecord
  | .command number t =>
    some ⟨.debug, "agda_cli.agda_session".toList,
      "agda command #".toList ++ Text.ofNat number ++ ": ".toList ++ t.strip⟩
  | .overheard t =>
    some ⟨.debug, "agda_cli.agda_session".toList, "agda stderr: ".toList ++ t.stripRight⟩
  | .counted file holes =>
    some ⟨.debug, "agda_cli.agda_checker".toList,
      file ++ ": ".toList ++ Text.ofNat holes ++ " hole(s)".toList⟩
  | .batchFailed file reason =>
    some ⟨.debug, "agda_cli.agda_checker".toList, file ++ ": ".toList ++ reason⟩
  | .unreadable file reason =>
    some ⟨.error, "agda_cli.agda_render".toList,
      "Error reading file ".toList ++ file ++ ": ".toList ++ reason⟩
  | .running argv =>
    some ⟨.debug, "agda_cli.agda_compile".toList, "running: ".toList ++ [' '].intercalate argv⟩
  | _ => none

/-- The name of a severity. -/
def Severity.name : Severity → Text
  | .debug => "DEBUG".toList
  | .error => "ERROR".toList

/-- What a log record writes.  Without details only errors are written, by their message alone;
with details every record is written behind the time, its severity and its source. -/
def LogRecord.text (time : Text) (details : Bool) (r : LogRecord) : Text :=
  if details then
    time ++ [' '] ++ r.severity.name ++ [' '] ++ r.source ++ ": ".toList ++ r.message ++ ['\n']
  else if r.severity = .error then r.message ++ ['\n']
  else []

/-- What has happened, in order. -/
abbrev Journal := List Event

namespace Journal

/-- The text printed. -/
def stdout (j : Journal) : Text :=
  j.flatMap fun
    | .printed t => t
    | _ => []

/-- The error output from events on, where `details` tells whether logging is detailed. -/
def stderrFrom (time : Text) (details : Bool) : Journal → Text
  | [] => []
  | .detailed :: j => stderrFrom time true j
  | .complained t :: j => t ++ stderrFrom time details j
  | e :: j => ((e.log?.map (LogRecord.text time details)).getD []) ++ stderrFrom time details j

/-- The error output, with `time` in the place of the time of day. -/
def stderr (time : Text) (j : Journal) : Text := stderrFrom time false j

/-- A process that was started. -/
structure Start where
  argv : List Text
  directory : Option Path
  input : Option Text
  deriving DecidableEq, Repr

/-- The path of the file that the system starts.  The process goes to its directory first, so a path
that does not start at the root is looked for from there; a program without a slash is no path, but
the name of one of the system's programs. -/
def Start.program? (s : Start) : Option Text :=
  (s.argv.head?.filter (·.contains '/')).map fun program =>
    if program.head? = some '/' then program
    else match s.directory with
      | some directory => directory.toText ++ '/' :: program
      | none => program

/-- What was written to a process. -/
def inputOf (process : Nat) (j : Journal) : Option Text :=
  j.findSome? fun
    | .input p t => if p = process then some t else none
    | _ => none

/-- The processes started, in order. -/
def starts (j : Journal) : List Start :=
  j.filterMap fun
    | .started p argv directory => some ⟨argv, directory, inputOf p j⟩
    | _ => none

/-- The commands handed to a session, in order. -/
def commands (j : Journal) : List Text :=
  j.filterMap fun
    | .command _ t => some t
    | _ => none

/-- The start or the end of a process. -/
inductive LifeEvent where
  | start (process : Nat)
  | exit (process : Nat)
  deriving DecidableEq, Repr

/-- The starts and ends of processes, in order. -/
def lifeCycle (j : Journal) : List LifeEvent :=
  j.filterMap fun
    | .started p _ _ => some (.start p)
    | .exited p _ => some (.exit p)
    | _ => none

end Journal

end AgdaFrontEnd
