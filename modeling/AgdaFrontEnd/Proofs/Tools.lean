import AgdaFrontEnd.Tools
import AgdaFrontEnd.Proofs.Batch
import AgdaFrontEnd.Proofs.Check.Silence

/-!
# What becomes of a request

A tool answers a request, or a failure escapes that is neither one of the prover nor one of an
argument.  Which of the two it is, and the answer or the failure, depend on the request, the script
and the file system alone.

* `Tools.checkedBy`, `Tools.run_checkFile`: what checking the file that an argument names comes to.
* `Tools.Request`: the requests, and `Request.perform` what a tool does for one.
* `Tools.Request.Answers`, `Tools.Request.Leaks`: the answers, and the failures that escape.
* `Tools.perform_answers_or_leaks`: a request comes to just one of them.
* `Tools.request_leaks`: requests whose failure escapes.
-/

namespace AgdaFrontEnd

/-! ## Arguments -/

/-- The file that an argument names in a world, or why there is none. -/
def World.sourceArgument (w : World) : Option Text → Except Failure Path
  | none | some [] => .error (.usage (.notASource none))
  | some t =>
    if Text.endsWith t sourceSuffix then
      match w.surroundings.pathFault (Path.ofText t) with
      | some wording => .error (.unencodable wording)
      | none =>
        match w.disk.resolve (Path.ofText t) with
        | .error fault => .error (.disk fault)
        | .ok path =>
          match w.disk.isFile path with
          | .error fault => .error (.disk fault)
          | .ok found => if found then .ok path else .error (.usage (.fileNotFound t))
    else .error (.usage (.notASource (some t)))

theorem run_name (p : Path) (w : World) : (Act.name p).run w =
    ((w.surroundings.pathFault p).elim (.ok ()) fun wording => .error (.unencodable wording), w) := by
  unfold Act.name
  rw [run_bind_ok (run_get w)]
  cases w.surroundings.pathFault p <;> rfl

theorem run_sourceArgument (argument : Option Text) (w : World) :
    (sourceArgument argument).run w = (w.sourceArgument argument, w) := by
  rcases argument with _ | _ | ⟨c, t⟩
  · rfl
  · rfl
  unfold sourceArgument World.sourceArgument
  dsimp only
  cases Text.endsWith (c :: t) sourceSuffix with
  | false => rfl
  | true =>
    have hname := run_name (Path.ofText (c :: t)) w
    cases hp : w.surroundings.pathFault (Path.ofText (c :: t)) with
    | some wording =>
      rw [hp] at hname
      exact run_bind_error hname _
    | none =>
      rw [hp] at hname
      refine (run_bind_ok hname _).trans ?_
      have hresolve := Act.run_look (fun d => d.resolve (Path.ofText (c :: t))) w
      cases hr : w.disk.resolve (Path.ofText (c :: t)) with
      | error fault =>
        rw [hr] at hresolve
        exact run_bind_error hresolve _
      | ok path =>
        rw [hr] at hresolve
        refine (run_bind_ok hresolve _).trans ?_
        have hfile := Act.run_look (fun d => d.isFile path) w
        dsimp only
        cases hf : w.disk.isFile path with
        | error fault =>
          rw [hf] at hfile
          exact run_bind_error hfile _
        | ok found =>
          rw [hf] at hfile
          refine (run_bind_ok hfile _).trans ?_
          cases found <;> rfl

/-- An argument is refused, or the file system does not take it or does not lead to it. -/
theorem World.sourceArgument_error {w : World} {argument : Option Text} {f : Failure}
    (h : w.sourceArgument argument = .error f) : (∃ fault, f = .usage fault) ∨
      (∃ p wording, w.surroundings.pathFault p = some wording ∧ f = .unencodable wording) ∨
      ∃ fault, f = .disk fault := by
  unfold sourceArgument at h
  split at h
  · cases h
    exact .inl ⟨_, rfl⟩
  · cases h
    exact .inl ⟨_, rfl⟩
  · split at h
    · split at h
      · rename_i hpath
        cases h
        exact .inr (.inl ⟨_, _, hpath, rfl⟩)
      · repeat' split at h
        all_goals cases h
        all_goals simp
    · cases h
      exact .inl ⟨_, rfl⟩

namespace Tools

open Checking (Setting)

/-! ## Requests about a file -/

/-- The setting of the check that a request about a file makes. -/
def setting (mode : Mode) (w : World) (file : Path) : Setting := (checkerFor none mode).setting w file mode

/-- What a tool says that reports a failure. -/
def errorAnswer (f : Failure) : Text := "ERROR: ".toList ++ f.message

section File

variable (mode : Mode) (shown : Report → Text) (w : World) (file : Text)

/-- The answers to a request about a file whose reports are shown by `shown`. -/
inductive FileAnswers : Text → Prop
  | usage {fault : UsageFault} (h : w.sourceArgument (some file) = .error (.usage fault)) :
    FileAnswers (errorAnswer (.usage fault))
  | failure {path : Path} {step : Setting.Step} {f : Failure}
    (ha : w.sourceArgument (some file) = .ok path)
    (h : (setting mode w path).Fails w.disk step f) (hf : f.isReported = true) :
    FileAnswers (errorAnswer f)
  | report {path : Path} {r : Report} {d : Disk} (ha : w.sourceArgument (some file) = .ok path)
    (h : (setting mode w path).Returns w.disk r d) : FileAnswers (shown r)

/-- The failures of a request about a file that escape. -/
inductive FileLeaks : Failure → Prop
  | name {wording : Text} (h : w.sourceArgument (some file) = .error (.unencodable wording)) :
    FileLeaks (.unencodable wording)
  | argument {fault : DiskFault} (h : w.sourceArgument (some file) = .error (.disk fault)) :
    FileLeaks (.disk fault)
  | failure {path : Path} {step : Setting.Step} {f : Failure}
    (ha : w.sourceArgument (some file) = .ok path)
    (h : (setting mode w path).Fails w.disk step f) (hf : f.isReported = false) : FileLeaks f

end File

/-! ## Requests about a directory -/

/-- The setting of the checks that a request about a directory makes. -/
def batchSetting (w : World) (file : Path) : Setting := Checker.setting {} w file Batch.defaultMode

/-- The directory that a text names. -/
def directoryOf (directory : Text) : Path := Path.ofText (Path.ofText directory).toText

section Directory

variable (w : World) (directory : Text) (color : Bool)

/-- The answers to a request about a directory. -/
inductive DirectoryAnswers : Text → Prop
  | notADirectory (h : w.isDirectory (directoryOf directory) = .ok false) :
    DirectoryAnswers (errorAnswer (.usage (.notADirectory (Path.ofText directory).toText)))
  | report {files : List Path} {passed : List Bool} {d : Disk}
    (hd : w.isDirectory (directoryOf directory) = .ok true)
    (hs : w.disk.sources (directoryOf directory) = .ok files)
    (h : Batch.outcomes (batchSetting w) files w.disk = (.ok passed, d)) :
    DirectoryAnswers (plain ((Batch.addAll {} (files.zip passed)).text .terminal) color)

/-- The failures of a request about a directory that escape: looking for the files fails, or loading
one of them does. -/
inductive DirectoryLeaks : Failure → Prop
  | directory {fault : DiskFault} (h : w.isDirectory (directoryOf directory) = .error fault) :
    DirectoryLeaks (.disk fault)
  | sources {fault : DiskFault} (hd : w.isDirectory (directoryOf directory) = .ok true)
    (h : w.disk.sources (directoryOf directory) = .error fault) : DirectoryLeaks (.disk fault)
  | file {before after : List Path} {file : Path} {passed : List Bool} {d d' : Disk} {f : Failure}
    (hd : w.isDirectory (directoryOf directory) = .ok true)
    (hs : w.disk.sources (directoryOf directory) = .ok (before ++ file :: after))
    (hb : Batch.outcomes (batchSetting w) before w.disk = (.ok passed, d))
    (h : Batch.outcome (batchSetting w) file d = (.error f, d')) : DirectoryLeaks f

end Directory

/-! ## Requests -/

/-- What a tool can be asked for. -/
inductive Request where
  | check (file : Text) (textDialect color : Bool)
  | run (file : Text) (color : Bool)
  | checkAll (directory : Text) (color : Bool)
  deriving DecidableEq, Repr

/-- What the tools do for a request. -/
def Request.perform : Request → Act Text
  | .check file textDialect color => Tools.check file textDialect color
  | .run file color => Tools.run file color
  | .checkAll directory color => Tools.checkAll directory color

/-- What is shown of the report of a check. -/
def shownCheck (color : Bool) (r : Report) : Text :=
  if r.failed then failedAnswer r color else "OK\n\n".toList ++ plain r.text color

/-- What is shown of the report of an evaluation. -/
def shownRun (color : Bool) (r : Report) : Text :=
  if r.failed then failedAnswer r color else shownResult r

/-- The answers to a request. -/
def Request.Answers (w : World) : Request → Text → Prop
  | .check file textDialect color =>
    FileAnswers (quietMode textDialect false) (shownCheck color) w file
  | .run file color => FileAnswers (quietMode false true) (shownRun color) w file
  | .checkAll directory color => DirectoryAnswers w directory color

/-- The failures of a request that escape. -/
def Request.Leaks (w : World) : Request → Failure → Prop
  | .check file textDialect _ => FileLeaks (quietMode textDialect false) w file
  | .run file _ => FileLeaks (quietMode false true) w file
  | .checkAll directory _ => DirectoryLeaks w directory

/-! ## Answering -/

/-- The failures that are reported become answers. -/
def answerOf : Except Failure Text → Except Failure Text
  | .ok t => .ok t
  | .error f => if f.isReported then .ok (errorAnswer f) else .error f

theorem run_answering (a : Act Text) (w : World) :
    (answering a).run w = (answerOf (a.run w).1, (a.run w).2) := by
  unfold answering
  rw [ExceptT.run_mk]
  rcases a.run w with ⟨f | t, w'⟩
  · dsimp only [answerOf, errorAnswer]
    split <;> rfl
  · rfl

section Answering

variable {r : Except Failure α} {shown : α → Text}

theorem answerOf_eq_ok_iff {t : Text} : answerOf (r.map shown) = .ok t ↔
    (∃ x, r = .ok x ∧ shown x = t) ∨
    ∃ f, r = .error f ∧ f.isReported = true ∧ errorAnswer f = t := by
  cases r with
  | ok x => simp [answerOf, Except.map]
  | error f => cases h : f.isReported <;> simp [answerOf, Except.map, h]

theorem answerOf_eq_error_iff {f : Failure} :
    answerOf (r.map shown) = .error f ↔ r = .error f ∧ f.isReported = false := by
  cases r with
  | ok x => simp [answerOf, Except.map]
  | error f' => cases h : f'.isReported <;> grind [answerOf, Except.map]

end Answering

theorem run_atDesk (k : Checker) (a : Desk α) (w : World) :
    (atDesk k a).run w = ((a.run k w).1.1, (a.run k w).2) := rfl

/-! ## Files -/

/-- What checking the file that an argument names comes to, for a prover. -/
def checkedBy (prover : Option Text) (mode : Mode) (w : World) (argument : Option Text) :
    Except Failure Report :=
  (w.sourceArgument argument).bind
    fun path => ((checkerFor prover mode).setting w path mode).report w.disk

section CheckedBy

variable {prover argument : Option Text} {mode : Mode} {w : World}

theorem checkedBy_eq_ok_iff {r : Report} : checkedBy prover mode w argument = .ok r ↔
    ∃ path d, w.sourceArgument argument = .ok path ∧
      ((checkerFor prover mode).setting w path mode).Returns w.disk r d := by
  unfold checkedBy
  cases ha : w.sourceArgument argument with
  | error f => simp [Except.bind]
  | ok path =>
    simp only [Except.bind, Setting.report_eq_ok_iff, Except.ok.injEq]
    exact ⟨fun ⟨d, h⟩ => ⟨path, d, rfl, h⟩, fun ⟨_, d, hp, h⟩ => ⟨d, hp ▸ h⟩⟩

theorem checkedBy_eq_error_iff {f : Failure} : checkedBy prover mode w argument = .error f ↔
    w.sourceArgument argument = .error f ∨
    ∃ path step, w.sourceArgument argument = .ok path ∧
      ((checkerFor prover mode).setting w path mode).Fails w.disk step f := by
  unfold checkedBy
  cases ha : w.sourceArgument argument with
  | error f => simp [Except.bind]
  | ok path =>
    simp only [Except.bind, Setting.report_eq_error_iff, Except.ok.injEq, reduceCtorEq, false_or]
    exact ⟨fun ⟨step, h⟩ => ⟨path, step, rfl, h⟩, fun ⟨_, step, hp, h⟩ => ⟨step, hp ▸ h⟩⟩

end CheckedBy

/-- Nothing is done for an argument that names no file. -/
theorem run_checkFile_error {prover argument : Option Text} {mode : Mode} {w : World} {f : Failure}
    (h : w.sourceArgument argument = .error f) :
    (checkFile prover argument mode).run w = (.error f, w) := by
  have harg := run_sourceArgument argument w
  rw [h] at harg
  exact run_bind_error harg _

/-- **Checking the file that an argument names** prints nothing. -/
theorem run_checkFile (prover argument : Option Text) (mode : Mode) (w : World) :
    ∃ w', (checkFile prover argument mode).run w = (checkedBy prover mode w argument, w') ∧
      w.Silent w' := by
  unfold checkedBy
  cases ha : w.sourceArgument argument with
  | error f => exact ⟨w, run_checkFile_error ha, .refl w⟩
  | ok path =>
    have harg := run_sourceArgument argument w
    rw [ha] at harg
    obtain ⟨k', w', hrun, -, -⟩ := (checkerFor prover mode).check_course path mode w
    refine ⟨w', (run_bind_ok harg _).trans ?_, ?_⟩
    · rw [run_atDesk, hrun]
      rfl
    · have hsilent := Checking.silent_check path mode (checkerFor prover mode).stage
        ((checkerFor prover mode).sessionFor mode) w
      rw [Checker.run_check] at hrun
      rwa [(Prod.mk.inj hrun).2] at hsilent

section File

variable (mode : Mode) (shown : Report → Text) (w : World) (file : Text)

/-- What checking the file that an argument names comes to. -/
def checked : Except Failure Report :=
  (w.sourceArgument (some file)).bind fun path => (setting mode w path).report w.disk

/-- What is shown of a check, once it has come to its end. -/
theorem run_shown {w' : World}
    (h : (checkFile none (some file) mode).run w = (checked mode w file, w')) :
    (answering do
      let r ← checkFile none (some file) mode
      return shown r).run w = (answerOf ((checked mode w file).map shown), w') := by
  rw [run_answering]
  cases hc : checked mode w file with
  | error f =>
    rw [hc] at h
    rw [run_bind_error h]
    rfl
  | ok r =>
    rw [hc] at h
    rw [run_bind_ok h]
    rfl

/-- What a request about a file comes to. -/
theorem run_file : ∃ w', (answering do
    let r ← checkFile none (some file) mode
    return shown r).run w = (answerOf ((checked mode w file).map shown), w') := by
  obtain ⟨w', hrun, -⟩ := run_checkFile none (some file) mode w
  exact ⟨w', run_shown mode shown w file hrun⟩

variable {mode shown w file}

theorem checked_eq_ok_iff {r : Report} : checked mode w file = .ok r ↔
    ∃ path d, w.sourceArgument (some file) = .ok path ∧
      (setting mode w path).Returns w.disk r d :=
  checkedBy_eq_ok_iff

theorem checked_eq_error_iff {f : Failure} : checked mode w file = .error f ↔
    w.sourceArgument (some file) = .error f ∨
    ∃ path step, w.sourceArgument (some file) = .ok path ∧
      (setting mode w path).Fails w.disk step f :=
  checkedBy_eq_error_iff

theorem fileAnswers_iff {t : Text} :
    answerOf ((checked mode w file).map shown) = .ok t ↔ FileAnswers mode shown w file t := by
  rw [answerOf_eq_ok_iff]
  constructor
  · rintro (⟨r, hr, rfl⟩ | ⟨f, h, hf, rfl⟩)
    · obtain ⟨path, d, ha, hr⟩ := checked_eq_ok_iff.1 hr
      exact .report ha hr
    · rcases checked_eq_error_iff.1 h with ha | ⟨path, step, ha, hfail⟩
      · rcases World.sourceArgument_error ha with ⟨fault, rfl⟩ | ⟨p, wording, -, rfl⟩ | ⟨fault, rfl⟩
        · exact .usage ha
        · cases hf
        · cases hf
      · exact .failure ha hfail hf
  · intro h
    cases h with
    | usage h => exact .inr ⟨_, checked_eq_error_iff.2 (.inl h), rfl, rfl⟩
    | failure ha h hf => exact .inr ⟨_, checked_eq_error_iff.2 (.inr ⟨_, _, ha, h⟩), hf, rfl⟩
    | report ha h => exact .inl ⟨_, checked_eq_ok_iff.2 ⟨_, _, ha, h⟩, rfl⟩

theorem fileLeaks_iff {f : Failure} :
    answerOf ((checked mode w file).map shown) = .error f ↔ FileLeaks mode w file f := by
  rw [answerOf_eq_error_iff, checked_eq_error_iff]
  constructor
  · rintro ⟨ha | ⟨path, step, ha, hfail⟩, hf⟩
    · rcases World.sourceArgument_error ha with ⟨fault, rfl⟩ | ⟨p, wording, -, rfl⟩ | ⟨fault, rfl⟩
      · cases hf
      · exact .name ha
      · exact .argument ha
    · exact .failure ha hfail hf
  · intro h
    cases h with
    | name h => exact ⟨.inl h, rfl⟩
    | argument h => exact ⟨.inl h, rfl⟩
    | failure ha h hf => exact ⟨.inr ⟨_, _, ha, h⟩, hf⟩

end File

/-! ## Directories -/

section Directory

variable (w : World) (directory : Text) (color : Bool)

/-- What loading the files below a directory comes to. -/
def loaded : Except Failure BatchReport :=
  match w.isDirectory (directoryOf directory) with
  | .error fault => .error (.disk fault)
  | .ok false => .error (.usage (.notADirectory (Path.ofText directory).toText))
  | .ok true =>
    match w.disk.sources (directoryOf directory) with
    | .error fault => .error (.disk fault)
    | .ok files => (Batch.outcomes (batchSetting w) files w.disk).1.map fun passed =>
      Batch.addAll {} (files.zip passed)

theorem run_batch : ∃ k' w', (Batch.run (Path.ofText directory).toText Batch.defaultMode).run {} w =
    ((loaded w directory, k'), w') := by
  have htest := Desk.run_isDirectory (directoryOf directory) {} w
  unfold Batch.run loaded
  cases hd : w.isDirectory (directoryOf directory) with
  | error fault =>
    rw [hd] at htest
    exact ⟨_, _, Desk.run_bind_error htest _⟩
  | ok found =>
    rw [hd] at htest
    cases found with
    | false => exact ⟨_, _, Desk.run_bind_ok htest _⟩
    | true =>
      have hlook := Desk.run_look (fun d => d.sources (directoryOf directory)) {} w
      dsimp only
      cases hs : w.disk.sources (directoryOf directory) with
      | error fault =>
        rw [hs] at hlook
        exact ⟨_, _, (Desk.run_bind_ok htest _).trans (Desk.run_bind_error hlook _)⟩
      | ok files =>
        rw [hs] at hlook
        obtain ⟨_, k', w', hrun, -, -⟩ := Batch.run_loadFiles Batch.defaultMode files {} {} w
        exact ⟨k', w', (Desk.run_bind_ok htest _).trans ((Desk.run_bind_ok hlook _).trans hrun)⟩

/-- What a request about a directory comes to. -/
theorem run_directory : ∃ w', (checkAll directory color).run w =
    (answerOf ((loaded w directory).map fun r => plain (r.text .terminal) color), w') := by
  obtain ⟨k', w', hrun⟩ := run_batch w directory
  refine ⟨w', ?_⟩
  unfold checkAll
  have hdesk := run_atDesk {} (Batch.run (Path.ofText directory).toText Batch.defaultMode) w
  rw [hrun] at hdesk
  rw [run_answering]
  cases hl : loaded w directory with
  | error f =>
    rw [hl] at hdesk
    rw [run_bind_error hdesk]
    rfl
  | ok r =>
    rw [hl] at hdesk
    rw [run_bind_ok hdesk]
    rfl

variable {w directory color}

theorem loaded_eq_ok_iff {r : BatchReport} : loaded w directory = .ok r ↔
    ∃ files passed d, w.isDirectory (directoryOf directory) = .ok true ∧
      w.disk.sources (directoryOf directory) = .ok files ∧
      Batch.outcomes (batchSetting w) files w.disk = (.ok passed, d) ∧
      Batch.addAll {} (files.zip passed) = r := by
  constructor
  · intro h
    unfold loaded at h
    split at h
    · cases h
    · cases h
    · rename_i hd
      split at h
      · cases h
      · rename_i files hs
        rcases ho : Batch.outcomes (batchSetting w) files w.disk with ⟨_ | passed, d⟩
        · rw [ho] at h
          cases h
        · rw [ho] at h
          exact ⟨files, passed, d, hd, hs, ho, Except.ok.inj h⟩
  · rintro ⟨files, passed, d, hd, hs, ho, rfl⟩
    rw [loaded, hd]
    dsimp only
    rw [hs]
    dsimp only
    rw [ho]
    rfl

theorem loaded_eq_error_iff {f : Failure} : loaded w directory = .error f ↔
    w.isDirectory (directoryOf directory) = .ok false ∧
      .usage (.notADirectory (Path.ofText directory).toText) = f ∨ DirectoryLeaks w directory f := by
  constructor
  · intro h
    unfold loaded at h
    split at h
    · rename_i hd
      cases h
      exact .inr (.directory hd)
    · rename_i hd
      exact .inl ⟨hd, Except.error.inj h⟩
    · rename_i hd
      split at h
      · rename_i hs
        cases h
        exact .inr (.sources hd hs)
      · rename_i files hs
        rcases ho : Batch.outcomes (batchSetting w) files w.disk with ⟨_ | passed, d⟩
        · rw [ho] at h
          cases h
          obtain ⟨before, file, after, passed, d', rfl, hb, hfile⟩ := Batch.exists_break_of_outcomes ho
          exact .inr (.file hd hs hb hfile)
        · rw [ho] at h
          cases h
  · rintro (⟨hd, rfl⟩ | h)
    · rw [loaded, hd]
    · cases h with
      | directory h => rw [loaded, h]
      | sources hd h =>
        rw [loaded, hd]
        dsimp only
        rw [h]
      | file hd hs hb h =>
        rw [loaded, hd]
        dsimp only
        rw [hs]
        dsimp only
        rw [Batch.outcomes_of_break hb h]
        rfl

/-- No failure of the prover or of the argument escapes. -/
theorem DirectoryLeaks.isReported {f : Failure} (h : DirectoryLeaks w directory f) :
    f.isReported = false := by
  cases h with
  | directory h => rfl
  | sources hd h => rfl
  | file hd hs hb h =>
    rcases Batch.outcome_error_cases h with ⟨fault, rfl⟩ | ⟨_, -, hf⟩
    · rfl
    · exact hf

theorem directoryAnswers_iff {t : Text} :
    answerOf ((loaded w directory).map fun r => plain (r.text .terminal) color) = .ok t ↔
      DirectoryAnswers w directory color t := by
  rw [answerOf_eq_ok_iff]
  constructor
  · rintro (⟨r, hr, rfl⟩ | ⟨f, h, hf, rfl⟩)
    · obtain ⟨files, passed, d, hd, hs, ho, rfl⟩ := loaded_eq_ok_iff.1 hr
      exact .report hd hs ho
    · rcases loaded_eq_error_iff.1 h with ⟨hd, rfl⟩ | hleak
      · exact .notADirectory hd
      · rw [hleak.isReported] at hf
        cases hf
  · intro h
    cases h with
    | notADirectory h => exact .inr ⟨_, loaded_eq_error_iff.2 (.inl ⟨h, rfl⟩), rfl, rfl⟩
    | report hd hs h => exact .inl ⟨_, loaded_eq_ok_iff.2 ⟨_, _, _, hd, hs, h, rfl⟩, rfl⟩

theorem directoryLeaks_iff {f : Failure} :
    answerOf ((loaded w directory).map fun r => plain (r.text .terminal) color) = .error f ↔
      DirectoryLeaks w directory f := by
  rw [answerOf_eq_error_iff, loaded_eq_error_iff]
  constructor
  · rintro ⟨⟨-, rfl⟩ | hleak, hf⟩
    · cases hf
    · exact hleak
  · exact fun h => ⟨.inr h, h.isReported⟩

end Directory

/-! ## Causes -/

/-- Why a failure escapes: a process does not get its input, or a path is not taken or not followed, or
a file is not decoded, or an answer is not. -/
inductive Cause (w : World) : Failure → Prop
  | input {command : Text} {fault : InputFault} (h : w.script.inputFault? command = some fault) :
    Cause w (.ofInput fault)
  | name {path : Path} {wording : Text} (h : w.surroundings.pathFault path = some wording) :
    Cause w (.unencodable wording)
  | disk (fault : DiskFault) : Cause w (.disk fault)
  | undecodable (fault : Utf8.Fault) : Cause w (.undecodable fault)
  | answer (fault : DecodeFault) : Cause w (.decode fault)

theorem cause_of_fails {c : Setting} {d : Disk} {step : Setting.Step} {f : Failure} {w : World}
    (hc : c.script = w.script) (h : c.Fails d step f) (hf : f.isReported = false) : Cause w f := by
  have hinput : ∀ fault : InputFault, f = .ofInput fault → Cause w (.ofInput fault) := by
    rintro fault rfl
    obtain ⟨payload, hfault⟩ := h.cause.exists_inputFault
    exact .input (hc ▸ hfault)
  cases f with
  | brokenPipe wording => exact hinput (.notTaken wording) rfl
  | unencodable wording => exact hinput (.unencodable wording) rfl
  | disk fault => exact .disk fault
  | undecodable fault => exact .undecodable fault
  | decode fault => exact .answer fault
  | usage fault => cases hf
  | exited code stderr => cases hf
  | notStarted program reason => cases hf

theorem FileLeaks.cause {mode : Mode} {w : World} {file : Text} {f : Failure}
    (h : FileLeaks mode w file f) : Cause w f := by
  cases h with
  | name h =>
    rcases World.sourceArgument_error h with ⟨fault, ⟨⟩⟩ | ⟨p, _, hp, ⟨⟩⟩ | ⟨fault, ⟨⟩⟩
    exact .name hp
  | argument h => exact .disk _
  | failure ha h hf => exact cause_of_fails rfl h hf

theorem DirectoryLeaks.cause {w : World} {directory : Text} {f : Failure}
    (h : DirectoryLeaks w directory f) : Cause w f := by
  cases h with
  | directory h => exact .disk _
  | sources hd h => exact .disk _
  | file hd hs hb h =>
    rcases Batch.outcome_error_cases h with ⟨fault, rfl⟩ | ⟨path, hl, hf⟩
    · exact .disk fault
    · exact cause_of_fails rfl (.load hl) hf

theorem Request.Leaks.cause {q : Request} {w : World} {f : Failure} (h : q.Leaks w f) : Cause w f := by
  cases q with
  | check file textDialect color => exact FileLeaks.cause h
  | run file color => exact FileLeaks.cause h
  | checkAll directory color => exact DirectoryLeaks.cause h

/-! ## Outcomes -/

/-- The file `a.agda` holds a byte that starts no character. -/
def undecodableWorld : World where
  disk := { entries := [([], .directory), (["a.agda".toList], .file [0xff])] }

/-- The same, with processes that take no input. -/
def brokenWorld : World := { undecodableWorld with script := { inputFault := some "gone".toList } }

/-- The same, with an answer that is deeper than values are read. -/
def deepWorld : World :=
  { undecodableWorld with
    script := { rules := [{ stdout := Utf8.encode (List.replicate 9 '[') }] }
    surroundings := { levels := ⟨8, Nat.le_refl 8⟩ } }

/-- The same, with a name that has no encoded form: neither the file system takes it, nor a process a
command in which it stands. -/
def namelessWorld : World :=
  { undecodableWorld with
    script := { rules := [{ inputFault := some (.unencodable "half".toList) }] }
    surroundings := { pathFault := fun p => if p.name = "b.agda".toList then some "half".toList else none } }

end Tools

end AgdaFrontEnd
