import AgdaFrontEnd.Response.Record
import AgdaFrontEnd.World.Process

/-!
# Failures

What can go wrong while a request is served.

* `Failure`: the causes, with their wording.
* `Failure.isReported`: the causes that are answered with a message; the others end the program.
-/

namespace AgdaFrontEnd

/-- A file or directory argument that cannot be used. -/
inductive UsageFault where
  /-- The argument is missing or does not name a source file. -/
  | notASource (given : Option Text)
  | fileNotFound (path : Text)
  | notADirectory (path : Text)
  deriving DecidableEq, Repr

/-- The wording of a fault. -/
def UsageFault.message : UsageFault → Text
  | .notASource given => "Expected an .agda file, got: ".toList ++ given.getD "(none)".toList
  | .fileNotFound path => "File not found: ".toList ++ path
  | .notADirectory path => "Not a directory: ".toList ++ path

/-- What can go wrong. -/
inductive Failure where
  /-- An argument cannot be used. -/
  | usage (fault : UsageFault)
  /-- A process ended with a code other than zero. -/
  | exited (code : Int) (stderr : Text)
  /-- A program did not start. -/
  | notStarted (program reason : Text)
  /-- A process did not take its input. -/
  | brokenPipe (wording : Text)
  /-- A text has no form in the encoding of the place that it is meant for. -/
  | unencodable (wording : Text)
  /-- A file was not read or changed. -/
  | disk (fault : DiskFault)
  /-- A file is not well-formed UTF-8. -/
  | undecodable (fault : Utf8.Fault)
  /-- An output was not decoded. -/
  | decode (fault : DecodeFault)
  deriving DecidableEq, Repr

namespace Failure

/-- The wording of a process's end. -/
def exitedMessage (code : Int) (stderr : Text) : Text :=
  "Agda process exited with code ".toList ++ Text.ofInt code ++
    (if stderr.strip.isEmpty then [] else '\n' :: stderr.strip)

/-- The wording of a failed start. -/
def notStartedMessage (program reason : Text) : Text :=
  "Agda not found at ".toList ++ program ++
    (if reason.isEmpty then [] else " (".toList ++ reason ++ [')'])

/-- The wording of a failure. -/
def message : Failure → Text
  | .usage fault => fault.message
  | .exited code stderr => exitedMessage code stderr
  | .notStarted program reason => notStartedMessage program reason
  | .brokenPipe wording => wording
  | .unencodable wording => wording
  | .disk fault => fault.message
  | .undecodable fault => fault.message
  | .decode fault => fault.message

/-- The failure is one of the prover or of an argument. -/
def isReported : Failure → Bool
  | .usage _ | .exited _ _ | .notStarted _ _ => true
  | _ => false

/-- The failure of handing a process its input. -/
def ofInput : InputFault → Failure
  | .notTaken wording => .brokenPipe wording
  | .unencodable wording => .unencodable wording

/-- The failure of a read. -/
def ofRead : ReadFault → Failure
  | .disk fault => .disk fault
  | .undecodable fault => .undecodable fault

end Failure

end AgdaFrontEnd
