import AgdaFrontEnd.Session

/-!
# Waiting in line for a session

Requests may come to a session at the same time.  It serves one at a time: the others wait in line,
in the order in which they came.  Who moves next is up to a schedule; a request that has to wait or
has its answer passes its turn.

* `Phase`: where a request stands.
* `Line`: the requests, the one that has the session, and those that wait for it.
* `Line.turn`: one request moves on.
* `Line.runTurns`: the requests move on as a schedule says.
* `Session.sendTogether`: all requests come at once and take turns.
-/

namespace AgdaFrontEnd

/-- Where a request stands. -/
inductive Phase where
  /-- It has not come yet. -/
  | away
  /-- It is in line. -/
  | waiting
  /-- It has the session. -/
  | admitted
  /-- A process works for it. -/
  | running (process : Nat)
  /-- It is over. -/
  | ended (outcome : Except Failure Text)

/-- A command on its way through a session. -/
structure Pending where
  command : Text
  phase : Phase := .away

/-- Requests that share a session. -/
structure Line where
  requests : List Pending
  /-- The request that has the session. -/
  holder : Option Nat := none
  /-- The requests that wait for it, the next one first. -/
  waiting : List Nat := []

namespace Line

/-- The line of commands that have not come yet. -/
def ofCommands (commands : List Text) : Line := { requests := commands.map fun c => { command := c } }

/-- A request gets to a phase. -/
def move (l : Line) (i : Nat) (phase : Phase) : Line :=
  { l with requests := l.requests.modify i fun r => { r with phase } }

/-- A request comes: it gets the session if that is free, and joins the line if not. -/
def arrive (l : Line) (i : Nat) : Line :=
  match l.holder with
  | none => { l.move i .admitted with holder := some i }
  | some _ => { l.move i .waiting with waiting := l.waiting ++ [i] }

/-- The session goes from its holder to the next request in line. -/
def passOn (l : Line) : Line :=
  match l.waiting with
  | [] => { l with holder := none }
  | j :: js => { l.move j .admitted with holder := some j, waiting := js }

/-- A request is over and leaves the session to the next one. -/
def leave (l : Line) (i : Nat) (outcome : Except Failure Text) : Line :=
  (l.move i (.ended outcome)).passOn

/-- It is a request's turn: it moves on by one phase if it can. -/
def turn (l : Line) (i : Nat) : StateT Session (StateM World) Line :=
  match l.requests[i]? with
  | none => return l
  | some r =>
    match r.phase with
    | .away => return l.arrive i
    | .waiting | .ended _ => return l
    | .admitted => do
      match ← (Session.launch r.command).run with
      | .ok process => return l.move i (.running process)
      | .error failure => return l.leave i (.error failure)
    | .running process => do
      return l.leave i (← (Session.converse process r.command).run)

/-- The requests take turns as a schedule says. -/
def runTurns (l : Line) : (schedule : List Nat) → StateT Session (StateM World) Line
  | [] => return l
  | i :: is => do (← l.turn i).runTurns is

/-- The schedule in which `n` requests take turns in order until all are over.  In the first round
they come, in the second one the first process starts, and after that each round ends a process and
starts the next one. -/
def rounds (n : Nat) : List Nat := (List.replicate (n + 2) (List.range n)).flatten

/-- The outcomes of the requests, as far as they are over. -/
def outcomes (l : Line) : List (Option (Except Failure Text)) :=
  l.requests.map fun r =>
    match r.phase with
    | .ended outcome => some outcome
    | _ => none

end Line

/-- Gives the prover commands all at once; the outcome of each. -/
def Session.sendTogether (commands : List Text) :
    StateT Session (StateM World) (List (Option (Except Failure Text))) := do
  return (← (Line.ofCommands commands).runTurns (Line.rounds commands.length)).outcomes

end AgdaFrontEnd
