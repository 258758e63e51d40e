import AgdaFrontEnd.Command
import AgdaFrontEnd.World.Basic

/-!
# Sessions

A session hands commands to the prover, one process for each.  The process gets the command as its
input; its error output is forwarded as it comes; its output is the answer if it ends with code
zero.

* `Dialect`: the two forms of answers.
* `Session`: the program, its arguments, and how many commands it was given.
* `Talk`: an activity with a session.
* `Session.launch`, `Session.converse`: the start of a process for a command, and its answer.
* `Session.send`, `Session.sendAll`: one command and its answer; many, one after another.
-/

namespace AgdaFrontEnd

/-- The form in which the prover answers. -/
inductive Dialect where
  | json
  | text
  deriving DecidableEq, Repr

namespace Dialect

/-- The name of a dialect. -/
def name : Dialect → Text
  | .json => "json".toList
  | .text => "text".toList

/-- The dialect of a name. -/
def ofName? (t : Text) : Option Dialect :=
  if t = name .json then some .json else if t = name .text then some .text else none

/-- The wording for a name of no dialect. -/
def unknownMessage (t : Text) : Text := t.quoted ++ " is not a valid Dialect".toList

/-- The flag that asks for a dialect. -/
def flag : Dialect → Text
  | .json => "--interaction-json".toList
  | .text => "--interaction".toList

end Dialect

/-- A way of running the prover. -/
structure Session where
  program : Text
  args : List Text
  dialect : Dialect
  /-- The error output of the prover is not forwarded. -/
  quiet : Bool
  /-- How many commands were given. -/
  sent : Nat := 0
  /-- The process that is at work. -/
  process : Option Nat := none
  deriving DecidableEq, Repr

namespace Session

/-- The program that is run unless another one is named. -/
def defaultProgram : Text := "agda".toList

/-- The program to run; an empty name is no name. -/
def programOr (name : Option Text) : Text :=
  match name with
  | some (c :: r) => c :: r
  | _ => defaultProgram

/-- The flags of both dialects. -/
def commonFlags : List Text :=
  ["--no-termination-check".toList, "--no-libraries".toList, "--allow-unsolved-metas".toList]

/-- A new session.  Arguments that are given stand in the place of all flags. -/
def new (program : Option Text) (args : Option (List Text)) (dialect : Dialect) (quiet : Bool) :
    Session :=
  { program := programOr program
    args := args.getD (dialect.flag :: commonFlags)
    dialect
    quiet }

/-- A process of the session is at work. -/
def isRunning (s : Session) : Bool := s.process.isSome

end Session

/-- An activity with a session.  What it did to the session and the world stays done if it fails. -/
abbrev Talk := ExceptT Failure (StateT Session (StateM World))

namespace Talk

/-- An activity in the world. -/
def inWorld (a : Act α) : Talk α := ExceptT.mk fun s w =>
  let (r, w) := a.run.run w
  ((r, s), w)

instance : MonadLift Act Talk := ⟨inWorld⟩

/-- The session. -/
def session : Talk Session := ExceptT.mk fun s w => ((.ok s, s), w)

/-- Changes the session. -/
def update (f : Session → Session) : Talk Unit := ExceptT.mk fun s w => ((.ok (), f s), w)

/-- Does something, then changes the session whether or not it failed. -/
def andThen (a : Talk α) (f : Session → Session) : Talk α := ExceptT.mk fun s w =>
  let ((r, s), w) := a.run s w
  ((r, f s), w)

end Talk

namespace Session

/-- The mark before forwarded error output. -/
def forwardMark : Text := "Agda Error: ".toList

/-- Takes note of a piece of error output and forwards it unless the session is quiet.  An empty
piece is passed over. -/
def hear (quiet : Bool) (piece : Text) : Act Unit := do
  if piece.isEmpty then return
  Act.note (.overheard piece)
  if !quiet then Act.note (.complained (forwardMark ++ piece))

/-- Forwards reads of error output and gives their text.  A character that is cut by two reads is
forwarded with the second one. -/
def forward (quiet : Bool) (d : Utf8.Decoder) : List Bytes → Act Text
  | [] => do
    hear quiet d.flush
    return d.flush
  | r :: rs => do
    let (piece, d) := d.feed r
    hear quiet piece
    let rest ← forward quiet d rs
    return piece ++ rest

/-- Gives a process its input and waits for it to end. -/
def exchange (quiet : Bool) (process : Nat) (command : Text) : Act Text := do
  let script := (← get).script
  match script.inputFault? command with
  | some fault => throw (.ofInput fault)
  | none =>
    Act.note (.input process command)
    let rule := script.ruleFor command
    Act.perform (← get).disk.home rule.effects
    let stderr ← forward quiet .between rule.reads
    Act.note (.exited process rule.exitCode)
    Act.note (.collected process)
    if rule.exitCode = 0 then return Utf8.decodeLossy rule.stdout
    else throw (.exited rule.exitCode stderr)

/-- Takes a command: counts it and starts a process for it, which has this number. -/
def launch (command : Text) : Talk Nat := do
  Talk.update fun s => { s with sent := s.sent + 1 }
  let s ← Talk.session
  Talk.inWorld (Act.note (.command s.sent command))
  let script := (← Talk.inWorld get).script
  match script.startFault? s.program command with
  | some fault => throw (.notStarted s.program fault.reason)
  | none =>
    let process ← Talk.inWorld (Act.start (s.program :: s.args) none)
    Talk.update fun s => { s with process := some process }
    return process

/-- Hands a command to the process that was started for it; its answer.  The process is at work no
longer afterwards, whether or not it answered. -/
def converse (process : Nat) (command : Text) : Talk Text := do
  let s ← Talk.session
  Talk.andThen (exchange s.quiet process command) fun s => { s with process := none }

/-- Gives the prover a command and returns its answer. -/
def send (command : Text) : Talk Text := do
  let process ← launch command
  converse process command

/-- Gives the prover a payload about a file. -/
def sendPayload (file payload : Text) (interactive : Bool) : Talk Text :=
  send (Command.envelope file payload interactive)

/-- Gives the prover commands one after another, each whatever became of those before it. -/
def sendAll : List Text → StateT Session (StateM World) (List (Except Failure Text))
  | [] => return []
  | c :: cs => do
    let r ← (send c).run
    let rs ← sendAll cs
    return r :: rs

end Session

end AgdaFrontEnd
