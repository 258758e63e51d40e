import AgdaFrontEnd.Proofs.Check.Parts
import AgdaFrontEnd.Proofs.World.Output

/-!
# A check prints nothing

What a check finds is in its report.  While it goes on it takes notes, and forwards the error output of
the prover if that is wanted; it prints nothing, whatever becomes of it.

* `Session.silent_send`: a command prints nothing.
* `Checking.silent_check`: a check prints nothing.
-/

namespace AgdaFrontEnd

namespace Session

theorem not_isPrinted_of_mem_heard {quiet : Bool} {piece : Text} {e : Event}
    (h : e ∈ heard quiet piece) : ¬ e.IsPrinted := by
  unfold heard at h
  split at h
  · cases h
  · rcases List.mem_cons.1 h with rfl | h
    · exact id
    · cases quiet with
      | true => cases h
      | false =>
        cases List.mem_singleton.1 h
        exact id

theorem not_isPrinted_of_mem_entries {script : Script} {quiet : Bool} {process : Nat} {d : Disk}
    {command : Text} {e : Event} (h : e ∈ entries script quiet process d command) :
    ¬ e.IsPrinted := by
  unfold entries at h
  split at h
  · cases h
  · rcases List.mem_cons.1 h with rfl | h
    · exact id
    · split at h
      · cases h
      · rcases List.mem_append.1 h with h | h
        · obtain ⟨piece, -, hpiece⟩ := List.mem_flatMap.1 h
          exact not_isPrinted_of_mem_heard hpiece
        · rcases List.mem_cons.1 h with rfl | h
          · exact id
          · cases List.mem_singleton.1 h
            exact id

theorem not_isPrinted_of_mem_told {script : Script} {s : Session} {next : Nat} {d : Disk}
    {command : Text} {e : Event} (h : e ∈ told script s next d command) : ¬ e.IsPrinted := by
  unfold told at h
  rcases List.mem_cons.1 h with rfl | h
  · exact id
  · cases hstart : script.startFault? s.program command with
    | some fault =>
      rw [hstart] at h
      cases h
    | none =>
      rw [hstart] at h
      rcases List.mem_cons.1 h with rfl | h
      · exact id
      · exact not_isPrinted_of_mem_entries h

/-- **A command prints nothing.** -/
theorem silent_send (command : Text) (s : Session) (w : World) :
    w.Silent ((send command).run s w).2 := by
  rw [run_send_eq]
  exact ⟨⟨_, rfl, fun e he => not_isPrinted_of_mem_told he⟩, rfl⟩

end Session

theorem Act.Reads.silent {a : Act α} (ha : a.Reads) (w : World) : w.Silent (a.run w).2 := by
  obtain ⟨notes, hnotes, hrun⟩ := ha.run_eq w
  rw [hrun]
  exact ⟨⟨notes, rfl, fun e he => (hnotes e he).not_isPrinted⟩, rfl⟩

namespace Checking

/-- The activity prints nothing. -/
def Silent (a : Checking α) : Prop := ∀ t s w, World.Silent w (a.run t s w).2

theorem Silent.bind {a : Checking α} {f : α → Checking β} (ha : Silent a) (hf : ∀ x, Silent (f x)) :
    Silent (a >>= f) := by
  intro t s w
  have hsilent := ha t s w
  rcases hrun : a.run t s w with ⟨⟨⟨r, t'⟩, s'⟩, w'⟩
  rw [hrun] at hsilent
  cases r with
  | error e => rwa [run_bind_error hrun]
  | ok x =>
    rw [run_bind_ok hrun]
    exact hsilent.trans (hf x t' s' w')

/-- No part of a check prints anything. -/
theorem closed_silent : Closed Silent where
  pure := fun _ _ _ w => .refl w
  throw := fun _ _ _ w => .refl w
  bind := Silent.bind
  enter := fun _ _ _ w => .refl w
  dialect := fun _ _ w => .refl w
  levels := fun _ _ w => .refl w
  inWorld := fun ha _ _ w => ha.silent w
  send := fun _ _ _ _ s w => Session.silent_send _ s w

/-- **A check prints nothing.** -/
theorem silent_check (file : Path) (mode : Mode) : Silent (check file mode) :=
  closed_silent.check file mode

end Checking

end AgdaFrontEnd
