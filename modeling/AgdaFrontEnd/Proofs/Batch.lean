import AgdaFrontEnd.Batch
import AgdaFrontEnd.Proofs.Check.Causes

/-!
# The course of a batch

A batch loads the files below a directory one after another.  What loading one of them comes to
depends on the setting and the file system before it.

* `Checker.Follows`: the state of a checker and its world after commands.
* `Batch.outcome`, `Batch.outcomes`: what loading one file, or several, comes to.
* `Batch.run_loadFile`, `Batch.run_loadFiles`: loading comes to these outcomes.
* `Batch.outcomes_of_break`, `Batch.exists_break_of_outcomes`: a batch breaks off at the first file
  whose outcome is a failure.
-/

namespace AgdaFrontEnd

/-! ## Desks -/

namespace Desk

section Bind

variable {a : Desk α} {k k' : Checker} {w w' : World}

theorem run_bind_ok {x : α} (h : a.run k w = ((.ok x, k'), w')) (f : α → Desk β) :
    (a >>= f).run k w = (f x).run k' w' := by
  rw [ExceptT.run_bind]
  exact bind_apply₂ h _

theorem run_bind_error {e : Failure} (h : a.run k w = ((.error e, k'), w')) (f : α → Desk β) :
    (a >>= f).run k w = ((.error e, k'), w') := by
  rw [ExceptT.run_bind]
  exact bind_apply₂ h _

end Bind

theorem run_inWorld (a : Act α) (k : Checker) (w : World) :
    (inWorld a).run k w = (((a.run w).1, k), (a.run w).2) := rfl

theorem run_look (f : Disk → Except DiskFault α) (k : Checker) (w : World) :
    (inWorld (Act.look f)).run k w = (((f w.disk).mapError .disk, k), w) := by
  rw [run_inWorld, Act.run_look]

theorem run_isDirectory (p : Path) (k : Checker) (w : World) :
    (inWorld (Act.isDirectory p)).run k w = (((w.isDirectory p).mapError .disk, k), w) := by
  have hrun : (Act.isDirectory p).run w = ((w.isDirectory p).mapError .disk, w) := by
    unfold Act.isDirectory
    rw [AgdaFrontEnd.run_bind_ok (run_get w)]
    cases w.isDirectory p <;> rfl
  rw [run_inWorld, hrun]

/-- An activity whose failure is kept as a result. -/
theorem run_kept (a : Desk α) (k : Checker) (w : World) :
    (ExceptT.mk fun c w =>
        let ((r, c), w) := a.run c w
        ((Except.ok r, c), w) : Desk (Except Failure α)).run k w =
      ((.ok (a.run k w).1.1, (a.run k w).1.2), (a.run k w).2) := rfl

end Desk

/-! ## Checkers at work -/

namespace Checker

/-- The state of a checker and its world after the commands `cs`, seen from the state before them: the
setting of every check is the same. -/
structure Follows (k : Checker) (w : World) (cs : List Text) (k' : Checker) (w' : World) : Prop where
  setting : ∀ file mode, k'.setting w' file mode = k.setting w file mode
  commands : w'.journal.commands = w.journal.commands ++ cs
  surroundings : w'.surroundings = w.surroundings

theorem Follows.refl (k : Checker) (w : World) : Follows k w [] k w :=
  ⟨fun _ _ => rfl, (List.append_nil _).symm, rfl⟩

theorem Follows.trans {k k' k'' : Checker} {w w' w'' : World} {cs cs' : List Text}
    (h : Follows k w cs k' w') (h' : Follows k' w' cs' k'' w'') :
    Follows k w (cs ++ cs') k'' w'' where
  setting := fun file mode => (h'.setting file mode).trans (h.setting file mode)
  commands := by rw [h'.commands, h.commands, List.append_assoc]
  surroundings := h'.surroundings.trans h.surroundings

/-- A note hands out no command. -/
theorem follows_note (k : Checker) (w : World) {e : Event} (h : e.IsNote) :
    Follows k w [] k { w with journal := w.journal ++ [e] } where
  setting := fun _ _ => rfl
  commands := by
    have hnote : ∀ e' ∈ [e], e'.IsNote := fun e' he => List.mem_singleton.1 he ▸ h
    rw [Journal.commands_append, Journal.commands_notes hnote]
  surroundings := rfl

/-- What a session has done its checker has done. -/
theorem follows_session {k : Checker} {mode : Mode} {w w' : World} {cs : List Text} {d : Disk}
    {s' : Session} (h : Session.Follows (k.sessionFor mode) w cs d s' w') (stage : Stage) :
    Follows k w cs ⟨k.session.map fun _ => s', stage⟩ w' where
  setting := by
    intro file mode'
    obtain ⟨_ | s, _⟩ := k
    · unfold setting sessionFor Checking.Setting.of
      rw [h.script, h.surroundings]
      rfl
    · exact Checking.Setting.of_follows h file mode'
  commands := h.commands
  surroundings := h.surroundings

theorem run_load_eq (file : Path) (mode : Mode) (k : Checker) (w : World) :
    (load file mode).run k w =
      ((((Checking.load file mode).run k.stage (k.sessionFor mode) w).1.1.1,
        ⟨k.session.map fun _ => ((Checking.load file mode).run k.stage (k.sessionFor mode) w).1.2,
          ((Checking.load file mode).run k.stage (k.sessionFor mode) w).1.1.2⟩),
        ((Checking.load file mode).run k.stage (k.sessionFor mode) w).2) := rfl

/-- Loading a file gives the messages of the errors found. -/
theorem run_load (k : Checker) (file : Path) (mode : Mode) (w : World) :
    ∃ r k' w', (load file mode).run k w =
        ((r.map fun x => x.diagnostics.map (·.message), k'), w') ∧
      (k.setting w file mode).load w.disk = (r, w'.disk) ∧
      k.Follows w [(k.setting w file mode).command (Command.load file.toText)] k' w' := by
  obtain ⟨r, s', w', hrun, hask, hf⟩ := Checking.run_ask file mode k.stage (k.sessionFor mode) w
    (Command.load file.toText) none Extractor.empty
  refine ⟨r, ⟨k.session.map fun _ => s', k.stage⟩, w', ?_, hask, follows_session hf k.stage⟩
  have hload : (Checking.load file mode).run k.stage (k.sessionFor mode) w =
      (((r.map fun x => x.diagnostics.map (·.message), k.stage), s'), w') := by
    unfold Checking.load
    cases r with
    | error f => exact Checking.run_bind_error hrun _
    | ok x => exact Checking.run_bind_ok hrun _
  rw [run_load_eq, hload]

end Checker

namespace Batch

open Checking (Setting)

/-! ## Outcomes -/

/-- What loading a file comes to, where `setting` are the settings of checks: whether the file
passed, and the file system after it.  The failure of a process is a failure of the file. -/
def outcome (setting : Path → Setting) (file : Path) (d : Disk) : Except Failure Bool × Disk :=
  match d.resolve file with
  | .error fault => (.error (.disk fault), d)
  | .ok path =>
    match (setting path).load d with
    | (.ok x, d) => (.ok x.diagnostics.isEmpty, d)
    | (.error f, d) => (if f.isReported then .ok false else .error f, d)

/-- What loading files comes to: whether each of them passed, or the failure that ended the batch. -/
def outcomes (setting : Path → Setting) : List Path → Disk → Except Failure (List Bool) × Disk
  | [], d => (.ok [], d)
  | f :: fs, d =>
    match outcome setting f d with
    | (.error e, d) => (.error e, d)
    | (.ok passed, d) => ((outcomes setting fs d).1.map (passed :: ·), (outcomes setting fs d).2)

/-- The report with more files. -/
def addAll (r : BatchReport) (files : List (Path × Bool)) : BatchReport :=
  files.foldl (fun r file => r.add .terminal file.1 file.2) r

/-! ## Runs -/

/-- Loading fails with the failure of a process, or with one that is not reported. -/
theorem load_cases {c : Setting} {d d' : Disk} {f : Failure} (h : c.load d = (.error f, d')) :
    (∃ code stderr, f = .exited code stderr) ∨ (∃ program reason, f = .notStarted program reason) ∨
      f.isReported = false := by
  cases Setting.queryFault_of_ask h with
  | start h => exact .inr (.inl ⟨_, _, rfl⟩)
  | exit stderr h => exact .inl ⟨_, _, rfl⟩
  | @input fault h => exact .inr (.inr (by cases fault <;> rfl))
  | effects h => exact .inr (.inr rfl)
  | answer fault => exact .inr (.inr rfl)

theorem run_loadFile (mode : Mode) (file : Path) (k : Checker) (w : World) :
    ∃ cs k' w', (loadFile mode file).run k w =
        (((outcome (k.setting w · mode) file w.disk).1, k'), w') ∧
      w'.disk = (outcome (k.setting w · mode) file w.disk).2 ∧ k.Follows w cs k' w' := by
  have hlook := Desk.run_look (fun d => d.resolve file) k w
  unfold loadFile outcome
  cases hr : w.disk.resolve file with
  | error fault =>
    rw [hr] at hlook
    exact ⟨[], k, w, Desk.run_bind_error hlook _, rfl, .refl k w⟩
  | ok path =>
    rw [hr] at hlook
    rw [Desk.run_bind_ok hlook]
    obtain ⟨r, k', w', hrun, hload, hf⟩ := k.run_load path mode w
    have hkept := Desk.run_kept (Checker.load path mode) k w
    rw [hrun] at hkept
    dsimp only
    rw [hload]
    cases r with
    | ok x =>
      have hempty : (x.diagnostics.map (·.message)).isEmpty = x.diagnostics.isEmpty :=
        List.isEmpty_map
      dsimp only
      rw [← hempty]
      exact ⟨_, k', w', Desk.run_bind_ok hkept _, rfl, hf⟩
    | error f =>
      rcases load_cases hload with ⟨code, stderr, rfl⟩ | ⟨program, reason, rfl⟩ | hrep
      · exact ⟨_, k', _, Desk.run_bind_ok hkept _, rfl, hf.trans (Checker.follows_note k' w' trivial)⟩
      · exact ⟨_, k', _, Desk.run_bind_ok hkept _, rfl, hf.trans (Checker.follows_note k' w' trivial)⟩
      · cases f <;> first | exact ⟨_, k', w', Desk.run_bind_ok hkept _, rfl, hf⟩ | exact nomatch hrep

theorem run_loadFiles (mode : Mode) : ∀ (files : List Path) (r : BatchReport) (k : Checker) (w : World),
    ∃ cs k' w', (loadFiles mode files r).run k w =
        (((outcomes (k.setting w · mode) files w.disk).1.map
          fun passed => addAll r (files.zip passed), k'), w') ∧
      w'.disk = (outcomes (k.setting w · mode) files w.disk).2 ∧ k.Follows w cs k' w'
  | [], r, k, w => ⟨[], k, w, rfl, rfl, .refl k w⟩
  | f :: fs, r, k, w => by
    obtain ⟨cs, k', w', hrun, hdisk, hf⟩ := run_loadFile mode f k w
    have hsetting : (k'.setting w' · mode) = (k.setting w · mode) :=
      funext fun file => hf.setting file mode
    unfold loadFiles outcomes
    rcases ho : outcome (k.setting w · mode) f w.disk with ⟨_ | passed, d⟩
    · rw [ho] at hrun hdisk
      exact ⟨cs, k', w', Desk.run_bind_error hrun _, hdisk, hf⟩
    · rw [ho] at hrun hdisk
      obtain ⟨cs', k'', w'', hrun', hdisk', hf'⟩ :=
        run_loadFiles mode fs (r.add .terminal f passed) k' w'
      rw [hsetting, hdisk] at hrun' hdisk'
      refine ⟨_, k'', w'', ?_, hdisk', hf.trans hf'⟩
      rw [Desk.run_bind_ok hrun, hrun']
      dsimp only
      cases (outcomes (k.setting w · mode) fs d).1 <;> rfl

/-! ## Breaking off -/

/-- The failure that ends a batch: a path is not resolved, or loading fails, but not by the failure of
a process. -/
theorem outcome_error_cases {setting : Path → Setting} {file : Path} {d d' : Disk} {f : Failure}
    (h : outcome setting file d = (.error f, d')) : (∃ fault, f = .disk fault) ∨
      ∃ path, (setting path).load d = (.error f, d') ∧ f.isReported = false := by
  unfold outcome at h
  split at h
  · cases h
    exact .inl ⟨_, rfl⟩
  · rename_i path _
    split at h
    · cases h
    · rename_i f' d₁ hl
      cases hf : f'.isReported with
      | true =>
        rw [hf] at h
        cases h
      | false =>
        rw [hf] at h
        cases h
        exact .inr ⟨path, hl, hf⟩

section BreakingOff

variable {setting : Path → Setting} {f : Path} {fs : List Path} {passed : Bool} {e : Failure}
  {d d' : Disk}

theorem outcomes_of_ok (h : outcome setting f d = (.ok passed, d')) :
    outcomes setting (f :: fs) d =
      ((outcomes setting fs d').1.map (passed :: ·), (outcomes setting fs d').2) := by
  rw [outcomes, h]

theorem outcomes_of_error (h : outcome setting f d = (.error e, d')) :
    outcomes setting (f :: fs) d = (.error e, d') := by
  rw [outcomes, h]

/-- A batch breaks off at a file whose outcome is a failure, if it gets there. -/
theorem outcomes_of_break {file : Path} {after : List Path} {d'' : Disk} :
    ∀ {before : List Path} {passed : List Bool} {d d' : Disk},
      outcomes setting before d = (.ok passed, d') → outcome setting file d' = (.error e, d'') →
        outcomes setting (before ++ file :: after) d = (.error e, d'')
  | [], _, d, d', h, hfile => by
    cases h
    exact outcomes_of_error hfile
  | f :: fs, passed, d, d', h, hfile => by
    rcases ho : outcome setting f d with ⟨_ | p, d₁⟩
    · rw [outcomes_of_error ho] at h
      cases h
    · rw [outcomes_of_ok ho] at h
      rcases hs : outcomes setting fs d₁ with ⟨_ | ps, d₂⟩
      · rw [hs] at h
        cases h
      · rw [hs] at h
        cases h
        rw [List.cons_append, outcomes_of_ok ho, outcomes_of_break hs hfile]
        rfl

/-- A batch that breaks off does so at a file whose outcome is a failure. -/
theorem exists_break_of_outcomes : ∀ {files : List Path} {d d'' : Disk},
    outcomes setting files d = (.error e, d'') → ∃ before file after passed d',
      files = before ++ file :: after ∧ outcomes setting before d = (.ok passed, d') ∧
      outcome setting file d' = (.error e, d'')
  | [], d, _, h => by cases h
  | f :: fs, d, _, h => by
    rcases ho : outcome setting f d with ⟨e' | p, d₁⟩
    · rw [outcomes_of_error ho] at h
      cases h
      exact ⟨[], f, fs, [], d, rfl, rfl, ho⟩
    · rw [outcomes_of_ok ho] at h
      rcases hs : outcomes setting fs d₁ with ⟨_ | ps, d₂⟩
      · rw [hs] at h
        cases h
        obtain ⟨before, file, after, passed, d', rfl, hbefore, hfile⟩ := exists_break_of_outcomes hs
        refine ⟨f :: before, file, after, p :: passed, d', rfl, ?_, hfile⟩
        rw [outcomes_of_ok ho, hbefore]
        rfl
      · rw [hs] at h
        cases h

end BreakingOff

end Batch

end AgdaFrontEnd
