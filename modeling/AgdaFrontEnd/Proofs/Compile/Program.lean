import AgdaFrontEnd.Compile
import AgdaFrontEnd.Proofs.World.Output

/-!
# What running a program comes to

* `Script.execute`: the outcome of running a program to its end, and the file system after it.
* `Script.launched`: the process that is started for it, if it starts.
* `Compile.run_runProgram`: running a program comes to this outcome and starts this process.
-/

namespace AgdaFrontEnd

/-- The rule by which a program behaves that is run with arguments. -/
def Script.ruleOf (script : Script) (program : Text) (args : List Text) : Rule :=
  script.ruleFor ([' '].intercalate (program :: args))

/-- How running a program in a directory to its end comes out, and the file system after it. -/
def Script.execute (script : Script) (program : Text) (args : List Text) (directory : Path)
    (d : Disk) : Except Failure Unit × Disk :=
  match script.startFault? program ([' '].intercalate (program :: args)) with
  | some fault => (.error (.notStarted program fault.reason), d)
  | none =>
    match (Effect.performAll directory (script.ruleOf program args).effects).run d with
    | (.error fault, d') =>
      (.error ((fault.reason?.map (.notStarted program)).getD (.disk fault)), d')
    | (.ok (), d') =>
      if (script.ruleOf program args).exitCode = 0 then (.ok (), d')
      else (.error (.exited (script.ruleOf program args).exitCode []), d')

/-- The processes that are started to run a program in a directory: one, unless it does not start. -/
def Script.launched (script : Script) (program : Text) (args : List Text) (directory : Path) :
    List Journal.Start :=
  match script.startFault? program ([' '].intercalate (program :: args)) with
  | some _ => []
  | none => [⟨program :: args, some directory, none⟩]

/-- A program that comes to its end has started. -/
theorem Script.launched_of_execute_ok {script : Script} {program : Text} {args : List Text}
    {directory : Path} {d d' : Disk} (h : script.execute program args directory d = (.ok (), d')) :
    script.launched program args directory = [⟨program :: args, some directory, none⟩] := by
  unfold execute at h
  unfold launched
  cases hfault : script.startFault? program ([' '].intercalate (program :: args)) with
  | none => rfl
  | some fault =>
    rw [hfault] at h
    cases h

namespace Compile

theorem run_starting_ok (program : Text) {a : Act Unit} {w w' : World}
    (h : a.run w = (.ok (), w')) : (starting program a).run w = (.ok (), w') :=
  run_tryCatch_ok h _

theorem run_starting_error (program : Text) {a : Act Unit} {w w' : World} {fault : DiskFault}
    (h : a.run w = (.error (.disk fault), w')) : (starting program a).run w =
      (.error ((fault.reason?.map (.notStarted program)).getD (.disk fault)), w') :=
  run_tryCatch_error h _

/-- **Running a program** comes to its outcome.  It starts the process of the program and no other
one, and gives it no input. -/
theorem run_runProgram (program : Text) (args : List Text) (directory : Path) (w : World) :
    ∃ w', (runProgram program args directory).run w =
        ((w.script.execute program args directory w.disk).1, w') ∧
      w'.disk = (w.script.execute program args directory w.disk).2 ∧ w'.script = w.script ∧
      ∃ events : Journal, w'.journal = w.journal ++ events ∧ events.Inputless ∧
        events.starts = w.script.launched program args directory := by
  unfold runProgram Script.execute Script.launched
  rw [run_bind_ok (Act.run_note _ w), run_bind_ok (run_get _)]
  dsimp only
  cases w.script.startFault? program ([' '].intercalate (program :: args)) with
  | some fault => exact ⟨_, rfl, rfl, rfl, [.running (program :: args)], rfl,
    by simp [Journal.Inputless, Event.IsInput], rfl⟩
  | none =>
    have hp := Act.run_perform directory (w.script.ruleOf program args).effects
      { w with
        next := w.next + 1
        journal := w.journal ++ [.running (program :: args)] ++
          [.started w.next (program :: args) (some directory)] }
    dsimp only at hp ⊢
    rw [run_bind_ok (Act.run_start _ _ _)]
    rcases hd : (Effect.performAll directory (w.script.ruleOf program args).effects).run w.disk with
      ⟨fault | _, d⟩
    · rw [hd] at hp
      exact ⟨_, run_bind_error (run_starting_error program hp) _, rfl, rfl,
        [.running (program :: args), .started w.next (program :: args) (some directory)],
        List.append_assoc _ _ _, by simp [Journal.Inputless, Event.IsInput], rfl⟩
    · rw [hd] at hp
      have hstart := run_starting_ok program hp
      unfold Script.ruleOf at hstart ⊢
      dsimp only
      rw [run_bind_ok hstart, run_bind_ok (Act.run_note _ _),
        run_bind_ok (Act.run_note _ _)]
      have hevents : ∀ code : Int, ∃ events : Journal,
          w.journal ++ [.running (program :: args)] ++
              [.started w.next (program :: args) (some directory)] ++ [.exited w.next code] ++
              [.collected w.next] = w.journal ++ events ∧ events.Inputless ∧
            events.starts = [⟨program :: args, some directory, none⟩] :=
        fun code => ⟨[.running (program :: args), .started w.next (program :: args) (some directory),
          .exited w.next code, .collected w.next], by simp only [List.append_assoc]; rfl,
          by simp [Journal.Inputless, Event.IsInput], rfl⟩
      by_cases hcode : (w.script.ruleFor ([' '].intercalate (program :: args))).exitCode = 0
      · rw [if_neg fun h => h hcode, if_pos hcode]
        exact ⟨_, rfl, rfl, rfl, hevents _⟩
      · rw [if_pos hcode, if_neg hcode]
        exact ⟨_, rfl, rfl, rfl, hevents _⟩

end Compile

end AgdaFrontEnd
