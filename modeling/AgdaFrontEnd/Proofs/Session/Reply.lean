import AgdaFrontEnd.Session
import AgdaFrontEnd.Proofs.World.Run

/-!
# What a command comes to

A command is answered by a process of its own, so its outcome depends on the program, the script
that says how programs behave, and the file system alone.

* `Session.reply`: the outcome of a command, and the file system after it.
* `Script.AlikeBut`: two scripts that differ in the output for one command only.
* `Session.Follows`: the state of a session and its world after commands, seen from the one before.
* `Session.run_send_eq`: a command comes to its reply, and what it leaves behind.
* `Session.run_send`: it is the one command that is entered in the journal, whatever becomes of it.
-/

namespace AgdaFrontEnd

/-! ## Talks -/

namespace Talk

section Bind

variable {a : Talk α} {s s' : Session} {w w' : World}

theorem run_bind_ok {x : α} (h : a.run s w = ((.ok x, s'), w')) (f : α → Talk β) :
    (a >>= f).run s w = (f x).run s' w' := by
  rw [ExceptT.run_bind]
  exact bind_apply₂ h _

theorem run_bind_error {e : Failure} (h : a.run s w = ((.error e, s'), w')) (f : α → Talk β) :
    (a >>= f).run s w = ((.error e, s'), w') := by
  rw [ExceptT.run_bind]
  exact bind_apply₂ h _

end Bind

theorem run_inWorld (a : Act α) (s : Session) (w : World) :
    (inWorld a).run s w = (((a.run w).1, s), (a.run w).2) := rfl

theorem run_session (s : Session) (w : World) : session.run s w = ((.ok s, s), w) := rfl

theorem run_update (f : Session → Session) (s : Session) (w : World) :
    (update f).run s w = ((.ok (), f s), w) := rfl

end Talk

namespace Session

/-! ## Error output -/

/-- The pieces of text that reads of error output are forwarded in, the last one included that is
left when the output ends. -/
def pieces (d : Utf8.Decoder) : List Bytes → List Text
  | [] => [d.flush]
  | r :: rs => (d.feed r).1 :: pieces (d.feed r).2 rs

/-- What is entered in the journal for a piece. -/
def heard (quiet : Bool) (piece : Text) : Journal :=
  if piece.isEmpty then []
  else .overheard piece :: if quiet then [] else [.complained (forwardMark ++ piece)]

theorem run_hear (quiet : Bool) (piece : Text) (w : World) :
    (hear quiet piece).run w = (.ok (), { w with journal := w.journal ++ heard quiet piece }) := by
  unfold hear heard
  cases piece with
  | nil => simp
  | cons c cs =>
    cases quiet with
    | true => simp
    | false =>
      refine (run_bind_ok (Act.run_note _ w) _).trans ?_
      simp

theorem run_forward (quiet : Bool) : ∀ (rs : List Bytes) (d : Utf8.Decoder) (w : World),
    (forward quiet d rs).run w = (.ok (pieces d rs).flatten,
      { w with journal := w.journal ++ (pieces d rs).flatMap (heard quiet) })
  | [], d, w => by
    rw [forward, run_bind_ok (run_hear _ _ w)]
    simp [pieces]
  | r :: rs, d, w => by
    rw [forward]
    dsimp only
    rw [run_bind_ok (run_hear _ _ w), run_bind_ok (run_forward quiet rs _ _)]
    simp [pieces]

theorem commands_heard (quiet : Bool) (ps : List Text) :
    Journal.commands (ps.flatMap (heard quiet)) = [] := by
  refine Journal.commands_eq_nil fun e he n t heq => ?_
  obtain ⟨p, -, hp⟩ := List.mem_flatMap.1 he
  unfold heard at hp
  cases p <;> cases quiet <;> simp_all

end Session

/-! ## Replies -/

/-- What a process answers that ends by a rule. -/
def Rule.answer (r : Rule) : Except Failure Text :=
  if r.exitCode = 0 then .ok (Utf8.decodeLossy r.stdout)
  else .error (.exited r.exitCode (Session.pieces .between r.reads).flatten)

/-- What a started process makes of a command: its answer, and the file system after it. -/
def Script.exchange (script : Script) (d : Disk) (command : Text) : Except Failure Text × Disk :=
  match script.inputFault? command with
  | some fault => (.error (.ofInput fault), d)
  | none =>
    match (Effect.performAll d.home (script.ruleFor command).effects).run d with
    | (.error fault, d') => (.error (.disk fault), d')
    | (.ok (), d') => ((script.ruleFor command).answer, d')

/-- What a command comes to that is given to a program: its answer, and the file system after it. -/
def Script.reply (script : Script) (program : Text) (d : Disk) (command : Text) :
    Except Failure Text × Disk :=
  match script.startFault? program command with
  | some fault => (.error (.notStarted program fault.reason), d)
  | none => script.exchange d command

/-- Two scripts by which the same becomes of the commands `cs`, but for the output of the process
that gets the command `command`. -/
structure Script.AlikeBut (cs : List Text) (command : Text) (a b : Script) : Prop where
  start : ∀ t ∈ cs, ∀ program, a.startFault? program t = b.startFault? program t
  input : ∀ t ∈ cs, a.inputFault? t = b.inputFault? t
  effects : ∀ t ∈ cs, (a.ruleFor t).effects = (b.ruleFor t).effects
  exitCode : ∀ t ∈ cs, (a.ruleFor t).exitCode = (b.ruleFor t).exitCode
  stderr : ∀ t ∈ cs, (a.ruleFor t).stderr = (b.ruleFor t).stderr
  stdout : ∀ t ∈ cs, t ≠ command → (a.ruleFor t).stdout = (b.ruleFor t).stdout

namespace Script.AlikeBut

variable {cs : List Text} {command t : Text} {a b : Script} (h : a.AlikeBut cs command b)
  (ht : t ∈ cs) (program : Text) (d : Disk)

include h ht

theorem answer_eq (hc : t ≠ command) : (a.ruleFor t).answer = (b.ruleFor t).answer := by
  unfold Rule.answer Rule.reads
  rw [h.exitCode t ht, h.stderr t ht, h.stdout t ht hc]

/-- Such scripts leave the same file system after each of the commands. -/
theorem reply_disk : (a.reply program d t).2 = (b.reply program d t).2 := by
  unfold Script.reply Script.exchange
  rw [h.start t ht, h.input t ht, h.effects t ht]
  split
  · rfl
  · split
    · rfl
    · split <;> rfl

/-- Such scripts reply alike to all commands but one. -/
theorem reply_eq (hc : t ≠ command) : a.reply program d t = b.reply program d t := by
  unfold Script.reply Script.exchange
  rw [h.start t ht, h.input t ht, h.effects t ht, h.answer_eq ht hc]

end Script.AlikeBut

namespace Session

/-- What is entered in the journal for a started process: its input, what is heard of it, and its end. -/
def entries (script : Script) (quiet : Bool) (process : Nat) (d : Disk) (command : Text) : Journal :=
  match script.inputFault? command with
  | some _ => []
  | none =>
    .input process command ::
      match (Effect.performAll d.home (script.ruleFor command).effects).run d with
      | (.error _, _) => []
      | (.ok (), _) =>
        (pieces .between (script.ruleFor command).reads).flatMap (heard quiet) ++
          [.exited process (script.ruleFor command).exitCode, .collected process]

theorem commands_entries (script : Script) (quiet : Bool) (process : Nat) (d : Disk) (command : Text) :
    Journal.commands (entries script quiet process d command) = [] := by
  unfold entries
  split
  · rfl
  · rw [Journal.commands_cons]
    split
    · rfl
    · rw [Journal.commands_append, commands_heard]
      rfl

theorem run_exchange_eq (quiet : Bool) (process : Nat) (command : Text) (w : World) :
    (exchange quiet process command).run w = ((w.script.exchange w.disk command).1,
      { w with
        disk := (w.script.exchange w.disk command).2
        journal := w.journal ++ entries w.script quiet process w.disk command }) := by
  unfold exchange Script.exchange entries
  rw [run_bind_ok (run_get w)]
  dsimp only
  cases w.script.inputFault? command with
  | some fault => simp
  | none =>
    rw [run_bind_ok (Act.run_note _ w), run_bind_ok (run_get _)]
    have hp := Act.run_change (Effect.performAll w.disk.home (w.script.ruleFor command).effects)
      { w with journal := w.journal ++ [.input process command] }
    rcases hd : (Effect.performAll w.disk.home (w.script.ruleFor command).effects).run w.disk with
      ⟨r, d⟩
    rw [hd] at hp
    cases r with
    | error fault =>
      rw [Act.perform, run_bind_error hp]
    | ok _ =>
      rw [Act.perform, run_bind_ok hp, run_bind_ok (run_forward quiet _ _ _),
        run_bind_ok (Act.run_note _ _), run_bind_ok (Act.run_note _ _)]
      unfold Rule.answer
      split <;> simp

/-- The state of a session and its world after the commands `cs`, which left the file system `d`,
seen from the state before them. -/
structure Follows (s : Session) (w : World) (cs : List Text) (d : Disk) (s' : Session) (w' : World) :
    Prop where
  program : s'.program = s.program
  args : s'.args = s.args
  dialect : s'.dialect = s.dialect
  quiet : s'.quiet = s.quiet
  sent : s'.sent = s.sent + cs.length
  script : w'.script = w.script
  surroundings : w'.surroundings = w.surroundings
  disk : w'.disk = d
  idle : s.process = none → s'.process = none
  commands : w'.journal.commands = w.journal.commands ++ cs

theorem Follows.refl (s : Session) (w : World) : Follows s w [] w.disk s w :=
  ⟨rfl, rfl, rfl, rfl, rfl, rfl, rfl, rfl, id, by simp⟩

theorem Follows.trans {s s' s'' : Session} {w w' w'' : World} {cs cs' : List Text} {d d' : Disk}
    (h : Follows s w cs d s' w') (h' : Follows s' w' cs' d' s'' w'') :
    Follows s w (cs ++ cs') d' s'' w'' where
  program := h'.program.trans h.program
  args := h'.args.trans h.args
  dialect := h'.dialect.trans h.dialect
  quiet := h'.quiet.trans h.quiet
  sent := by rw [h'.sent, h.sent, List.length_append, Nat.add_assoc]
  script := h'.script.trans h.script
  surroundings := h'.surroundings.trans h.surroundings
  disk := h'.disk
  idle := fun hs => h'.idle (h.idle hs)
  commands := by rw [h'.commands, h.commands, List.append_assoc]

/-- Notes hand out no command. -/
theorem follows_notes (s : Session) (w : World) {notes : Journal}
    (h : ∀ e ∈ notes, Event.IsNote e) :
    Follows s w [] w.disk s { w with journal := w.journal ++ notes } where
  program := rfl
  args := rfl
  dialect := rfl
  quiet := rfl
  sent := rfl
  script := rfl
  surroundings := rfl
  disk := rfl
  idle := id
  commands := by rw [Journal.commands_append, Journal.commands_notes h]

/-! ## Sending -/

/-- The command is entered in the journal, and then a process is started for it. -/
theorem run_launch_eq (command : Text) (s : Session) (w : World) :
    (launch command).run s w = (Option.elim (w.script.startFault? s.program command)
      (((.ok w.next, { s with sent := s.sent + 1, process := some w.next }),
        { w with
          journal := w.journal ++ [.command (s.sent + 1) command] ++
            [.started w.next (s.program :: s.args) none]
          next := w.next + 1 }))
      fun fault => ((.error (.notStarted s.program fault.reason), { s with sent := s.sent + 1 }),
        { w with journal := w.journal ++ [.command (s.sent + 1) command] })) := by
  have hnote : (Talk.inWorld (Act.note (.command (s.sent + 1) command))).run
      { s with sent := s.sent + 1 } w = ((.ok (), { s with sent := s.sent + 1 }),
        { w with journal := w.journal ++ [.command (s.sent + 1) command] }) := rfl
  unfold launch
  rw [Talk.run_bind_ok (Talk.run_update _ s w), Talk.run_bind_ok (Talk.run_session _ w),
    Talk.run_bind_ok hnote, Talk.run_bind_ok (Talk.run_inWorld _ _ _)]
  dsimp only
  cases w.script.startFault? s.program command <;> rfl

theorem run_converse (process : Nat) (command : Text) (s : Session) (w : World) :
    (converse process command).run s w =
      ((((exchange s.quiet process command).run w).1, { s with process := none }),
        ((exchange s.quiet process command).run w).2) := rfl

/-- What is entered in the journal for a command whose process, if it starts, has the number `next`. -/
def told (script : Script) (s : Session) (next : Nat) (d : Disk) (command : Text) : Journal :=
  .command (s.sent + 1) command :: Option.elim (script.startFault? s.program command)
    (.started next (s.program :: s.args) none :: entries script s.quiet next d command) fun _ => []

/-- The session after a command. -/
def afterCommand (script : Script) (s : Session) (command : Text) : Session :=
  { s with
    sent := s.sent + 1
    process := Option.elim (script.startFault? s.program command) none fun _ => s.process }

/-- The number of the next process after a command. -/
def nextAfter (script : Script) (s : Session) (next : Nat) (command : Text) : Nat :=
  Option.elim (script.startFault? s.program command) (next + 1) fun _ => next

theorem commands_told (script : Script) (s : Session) (next : Nat) (d : Disk) (command : Text) :
    Journal.commands (told script s next d command) = [command] := by
  unfold told
  cases script.startFault? s.program command with
  | some _ => rfl
  | none =>
    show command :: Journal.commands (entries script s.quiet next d command) = [command]
    rw [commands_entries]

/-- **A command comes to its reply.** -/
theorem run_send_eq (command : Text) (s : Session) (w : World) :
    (send command).run s w =
      (((w.script.reply s.program w.disk command).1, afterCommand w.script s command),
        { w with
          disk := (w.script.reply s.program w.disk command).2
          journal := w.journal ++ told w.script s w.next w.disk command
          next := nextAfter w.script s w.next command }) := by
  unfold send Script.reply told afterCommand nextAfter
  have hlaunch := run_launch_eq command s w
  cases h : w.script.startFault? s.program command with
  | some fault =>
    rw [h] at hlaunch
    rw [Talk.run_bind_error hlaunch]
    rfl
  | none =>
    rw [h] at hlaunch
    rw [Talk.run_bind_ok hlaunch, run_converse, run_exchange_eq]
    simp

/-- A command is the one command that is entered in the journal for it, whatever becomes of it. -/
theorem run_send (command : Text) (s : Session) (w : World) :
    ∃ s' w', (send command).run s w =
        (((w.script.reply s.program w.disk command).1, s'), w') ∧
      Follows s w [command] (w.script.reply s.program w.disk command).2 s' w' := by
  refine ⟨_, _, run_send_eq command s w, ⟨rfl, rfl, rfl, rfl, rfl, rfl, rfl, rfl, fun hs => ?_, ?_⟩⟩
  · unfold afterCommand
    cases w.script.startFault? s.program command with
    | some _ => exact hs
    | none => rfl
  · rw [Journal.commands_append, commands_told]

end Session

end AgdaFrontEnd
