import AgdaFrontEnd.Proofs.Session.Reply

/-!
# Where the numbers start

A session counts its commands and the world counts the processes.  These numbers are entered in the
journal, and nothing else depends on them: where they start later, and the journal is another one
before, everything goes the same way with later numbers.

* `Event.shift`, `Session.shift`, `World.shift`: events, sessions and worlds with later numbers.
* `Session.send_shift`: a command in a shifted world.
* `Act.Reads.run_shift`: reading in a shifted world.
* `Session.Follows.eq_shift`: a session that is idle differs from what it was in its count only.
-/

namespace AgdaFrontEnd

/-! ## Later numbers -/

/-- The event with the number of a command later by `m`, and that of a process by `n`. -/
def Event.shift (m n : Nat) : Event → Event
  | .command number t => .command (number + m) t
  | .started process argv directory => .started (process + n) argv directory
  | .input process t => .input (process + n) t
  | .exited process code => .exited (process + n) code
  | .collected process => .collected (process + n)
  | e => e

theorem Event.shift_of_isNote {e : Event} (h : e.IsNote) (m n : Nat) : e.shift m n = e := by
  cases e <;> first | rfl | exact h.elim

/-- The session after `m` more commands, where the numbers of processes are later by `n`. -/
def Session.shift (m n : Nat) (s : Session) : Session :=
  { s with sent := s.sent + m, process := s.process.map (· + n) }

/-- The world with later numbers, and with the events `j` before its own. -/
def World.shift (j : Journal) (m n : Nat) (w : World) : World :=
  { w with journal := j ++ w.journal.map (Event.shift m n), next := w.next + n }

theorem Journal.commands_map_shift (m n : Nat) (j : Journal) :
    commands (j.map (Event.shift m n)) = commands j := by
  unfold commands
  rw [List.filterMap_map]
  congr 1
  funext e
  cases e <;> rfl

/-! ## Single steps -/

theorem Act.Reads.run_shift {a : Act α} (ha : a.Reads) (w : World) (j : Journal) (m n : Nat) :
    a.run (w.shift j m n) = ((a.run w).1, (a.run w).2.shift j m n) := by
  obtain ⟨notes, hnotes, hrun⟩ := ha.exists_notes w.disk
  have hmap : notes.map (Event.shift m n) = notes := by
    refine (List.map_congr_left fun e he => ?_).trans (List.map_id notes)
    exact Event.shift_of_isNote (hnotes e he) m n
  rw [hrun w rfl, hrun (w.shift j m n) rfl]
  simp [World.shift, hmap]

namespace Session

variable (script : Script) (s : Session) (m n next process : Nat) (d : Disk) (command : Text)

theorem map_shift_heard (quiet : Bool) (ps : List Text) :
    (ps.flatMap (heard quiet)).map (Event.shift m n) = ps.flatMap (heard quiet) := by
  have hpiece : ∀ p, (heard quiet p).map (Event.shift m n) = heard quiet p := by
    intro p
    cases p <;> cases quiet <;> rfl
  rw [List.map_flatMap]
  simp only [hpiece]

theorem entries_shift (quiet : Bool) : entries script quiet (process + n) d command =
    (entries script quiet process d command).map (Event.shift m n) := by
  unfold entries
  split
  · rfl
  · split
    · rfl
    · rw [List.map_cons, List.map_append, map_shift_heard]
      rfl

theorem told_shift : told script (s.shift m n) (next + n) d command =
    (told script s next d command).map (Event.shift m n) := by
  have hnumber : s.sent + m + 1 = s.sent + 1 + m := Nat.add_right_comm s.sent m 1
  unfold told shift
  dsimp only
  rw [hnumber, List.map_cons]
  cases script.startFault? s.program command with
  | some _ => rfl
  | none =>
    rw [Option.elim_none, Option.elim_none, List.map_cons, ← entries_shift]
    rfl

theorem afterCommand_shift :
    afterCommand script (s.shift m n) command = (afterCommand script s command).shift m n := by
  have hnumber : s.sent + m + 1 = s.sent + 1 + m := Nat.add_right_comm s.sent m 1
  unfold afterCommand shift
  dsimp only
  rw [hnumber]
  cases script.startFault? s.program command <;> rfl

theorem nextAfter_shift :
    nextAfter script (s.shift m n) (next + n) command = nextAfter script s next command + n := by
  unfold nextAfter shift
  dsimp only
  cases script.startFault? s.program command with
  | some _ => rfl
  | none => exact Nat.add_right_comm next n 1

/-- **A command in a shifted world** comes to the same, with later numbers. -/
theorem send_shift (w : World) (j : Journal) :
    (send command).run (s.shift m n) (w.shift j m n) =
      ((((send command).run s w).1.1, ((send command).run s w).1.2.shift m n),
        ((send command).run s w).2.shift j m n) := by
  have htold := told_shift w.script s m n w.next w.disk command
  have hnext := nextAfter_shift w.script s m n w.next command
  rw [run_send_eq, run_send_eq, ← afterCommand_shift]
  simp only [World.shift, List.map_append, ← List.append_assoc, ← htold, ← hnext]
  rfl

/-- A session that was idle before some commands differs from itself in its count only. -/
theorem Follows.eq_shift {s s' : Session} {w w' : World} {cs : List Text} {d : Disk}
    (h : Follows s w cs d s' w') (hs : s.process = none) (n : Nat) : s' = s.shift cs.length n := by
  have hidle := h.idle hs
  have hsent := h.sent
  obtain ⟨program, args, dialect, quiet, sent, process⟩ := s
  obtain ⟨program', args', dialect', quiet', sent', process'⟩ := s'
  obtain ⟨rfl, rfl, rfl, rfl, -, -, -, -, -, -⟩ := h
  dsimp only at hsent
  subst hsent
  cases hs
  cases hidle
  rfl

end Session

end AgdaFrontEnd
