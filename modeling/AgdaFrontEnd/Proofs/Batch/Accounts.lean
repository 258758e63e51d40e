import AgdaFrontEnd.Proofs.Batch
import AgdaFrontEnd.Proofs.Disk.Sources

/-!
# A batch accounts for its files

A batch looks for its files before it loads the first one, and then loads them one after another.
Whatever becomes of them, every file is loaded once, in order, and has its place in the report; the
processes may change the files meanwhile.  Only a file whose path is not resolved when its turn comes,
or whose load fails otherwise than by the failure of a process, ends the batch before its time.

* `Batch.Visit`: a file that was loaded, and what its load came to.
* `Batch.Loaded`: files that were loaded one after another.
* `Batch.GoesOn`: a file past which a batch goes on.
* `Batch.exists_loaded`, `Batch.goesOn_of_run_ok`: files are loaded to the last one if a batch goes on
  past each that it gets to, and only then.
* `Batch.Accounts`: what a report says of its files.
* `Batch.run_eq_ok_iff`: a batch comes to its end exactly if every file is visited.
* `Batch.accounts_for_every_file`: the report of a batch accounts for its files.
-/

namespace AgdaFrontEnd

/-- The failure is that of a process: it ended with another code than zero, or did not start. -/
def Failure.IsOfProcess : Failure → Prop
  | .exited _ _ | .notStarted _ _ => True
  | _ => False

/-- A table stays one, whatever the answer to a command is. -/
theorem Script.isTable_reply (script : Script) (program : Text) {d : Disk} (hd : d.IsTable)
    (command : Text) : (script.reply program d command).2.IsTable := by
  unfold reply exchange
  split
  · exact hd
  · split
    · exact hd
    · have hkeeps := Effect.keepsTable_performAll d.home (script.ruleFor command).effects d hd
      split <;> rename_i hrun <;> rwa [hrun] at hkeeps

namespace Batch

/-! ## Visits -/

/-- What the load of a file comes to in a batch: whether the file passed, or the failure that ends the
batch, and what is noted. -/
def settled (file : Path) : Except Failure (List Text) → Except Failure Bool × Journal
  | .ok ms => (.ok ms.isEmpty, [])
  | .error (.exited code stderr) =>
    (.ok false, [.batchFailed file.toText (Failure.exited code stderr).message])
  | .error (.notStarted program reason) =>
    (.ok false, [.batchFailed file.toText (Failure.notStarted program reason).message])
  | .error f => (.error f, [])

theorem settled_error {f : Failure} (h : ¬ f.IsOfProcess) (file : Path) :
    settled file (.error f) = (.error f, []) := by
  cases f <;> first | rfl | exact absurd trivial h

/-- A file that was loaded: its path once it was resolved, and what its load came to. -/
structure Visit where
  file : Path
  path : Path
  result : Except Failure (List Text)

namespace Visit

/-- The load gave no message. -/
def passed (v : Visit) : Bool :=
  match v.result with
  | .ok ms => ms.isEmpty
  | .error _ => false

/-- What is noted of the file. -/
def notes (v : Visit) : Journal :=
  match v.result with
  | .ok _ => []
  | .error f => [.batchFailed v.file.toText f.message]

/-- The line of the file in a report. -/
def line (v : Visit) : Text :=
  if v.passed then Palette.terminal.coloured .green ("✓ ".toList ++ v.file.toText)
  else Palette.terminal.coloured .red ("✗ ".toList ++ v.file.toText)

theorem passed_eq_false_iff (v : Visit) :
    v.passed = false ↔ (∃ f, v.result = .error f) ∨ ∃ m ms, v.result = .ok (m :: ms) := by
  obtain ⟨_, _, result⟩ := v
  rcases result with f | _ | ⟨m, ms⟩ <;> simp [passed]

theorem settled_result (v : Visit) (h : ∀ f, v.result = .error f → f.IsOfProcess) :
    settled v.file v.result = (.ok v.passed, v.notes) := by
  obtain ⟨file, path, f | ms⟩ := v
  · have hf := h f rfl
    cases f <;> first | rfl | cases hf
  · rfl

/-- A note is no command. -/
theorem commands_notes (v : Visit) : Journal.commands v.notes = [] := by
  unfold notes
  split <;> rfl

/-- A visit by the checker `k` in the world `w` leaves `k'` and `w'`: the path was resolved, and the
load returned or failed by the failure of a process, which is noted. -/
structure Leads (mode : Mode) (v : Visit) (k : Checker) (w : World) (k' : Checker) (w' : World) :
    Prop where
  path : w.disk.resolve v.file = .ok v.path
  load : ∃ w₁, (Checker.load v.path mode).run k w = ((v.result, k'), w₁) ∧
    w' = { w₁ with journal := w₁.journal ++ v.notes }
  result : ∀ f, v.result = .error f → f.IsOfProcess

end Visit

/-- A batch goes on past a file: its path is resolved, and its load returns or fails by the failure of
a process. -/
def GoesOn (mode : Mode) (file : Path) (k : Checker) (w : World) : Prop :=
  ∃ path, w.disk.resolve file = .ok path ∧ ∀ f k' w',
    (Checker.load path mode).run k w = ((.error f, k'), w') → f.IsOfProcess

section OneFile

variable {mode : Mode} {file path : Path} {k k' : Checker} {w w' : World}

/-- Loading a file whose path is resolved: the failure of its load is looked at, and kept if it is
that of a process. -/
theorem run_loadFile_of_resolve (hpath : w.disk.resolve file = .ok path)
    {result : Except Failure (List Text)}
    (hload : (Checker.load path mode).run k w = ((result, k'), w')) :
    (loadFile mode file).run k w = (((settled file result).1, k'),
      { w' with journal := w'.journal ++ (settled file result).2 }) := by
  have hlook := Desk.run_look (fun d => d.resolve file) k w
  rw [hpath] at hlook
  have hkept := Desk.run_kept (Checker.load path mode) k w
  rw [hload] at hkept
  refine (Desk.run_bind_ok hlook _).trans ((Desk.run_bind_ok hkept _).trans ?_)
  rcases result with f | ms
  · cases f <;> simp only [settled, List.append_nil] <;> rfl
  · simp only [settled, List.append_nil]
    rfl

theorem Visit.Leads.run_loadFile {v : Visit} (h : v.Leads mode k w k' w') :
    (loadFile mode v.file).run k w = ((.ok v.passed, k'), w') := by
  obtain ⟨hpath, ⟨w₁, hload, rfl⟩, hresult⟩ := h
  rw [run_loadFile_of_resolve hpath hload, v.settled_result hresult]

theorem GoesOn.exists_visit (h : GoesOn mode file k w) :
    ∃ (v : Visit) (k' : Checker) (w' : World), v.file = file ∧ v.Leads mode k w k' w' := by
  obtain ⟨path, hpath, hprocess⟩ := h
  rcases hload : (Checker.load path mode).run k w with ⟨⟨result, k'⟩, w₁⟩
  refine ⟨⟨file, path, result⟩, k', _, rfl, hpath, ⟨w₁, hload, rfl⟩, ?_⟩
  rintro f rfl
  exact hprocess f k' w₁ hload

/-- Any other file ends the batch. -/
theorem run_loadFile_of_not_goesOn (h : ¬ GoesOn mode file k w) :
    ∃ f k' w', (loadFile mode file).run k w = ((.error f, k'), w') := by
  cases hpath : w.disk.resolve file with
  | error fault =>
    have hlook := Desk.run_look (fun d => d.resolve file) k w
    rw [hpath] at hlook
    exact ⟨_, _, _, Desk.run_bind_error hlook _⟩
  | ok path =>
    rcases hload : (Checker.load path mode).run k w with ⟨⟨result, k'⟩, w'⟩
    have hrun := run_loadFile_of_resolve hpath hload
    have hprocess : ∃ f, result = .error f ∧ ¬ f.IsOfProcess := by
      by_contra hnone
      refine h ⟨path, hpath, fun f k₁ w₁ hf => ?_⟩
      rw [hload] at hf
      by_contra hother
      exact hnone ⟨f, congrArg (·.1.1) hf, hother⟩
    obtain ⟨f, rfl, hf⟩ := hprocess
    rw [settled_error hf] at hrun
    exact ⟨_, _, _, hrun⟩

end OneFile

/-! ## Files one after another -/

/-- The files of the visits were loaded one after another, each by the checker and in the world that
the one before it left. -/
inductive Loaded (mode : Mode) : Checker → World → List Visit → Checker → World → Prop
  | nil (k : Checker) (w : World) : Loaded mode k w [] k w
  | cons {k k₁ k' : Checker} {w w₁ w' : World} {v : Visit} {vs : List Visit}
    (hvisit : v.Leads mode k w k₁ w₁) (hrest : Loaded mode k₁ w₁ vs k' w') :
    Loaded mode k w (v :: vs) k' w'

/-- A batch of the files gets to `file`, by the checker `k'` and in the world `w'`, after those before
it. -/
def Reaches (mode : Mode) (files : List Path) (k : Checker) (w : World) (file : Path) (k' : Checker)
    (w' : World) : Prop :=
  ∃ (vs : List Visit) (after : List Path), files = vs.map (·.file) ++ file :: after ∧
    Loaded mode k w vs k' w'

/-- The report with more files. -/
def tally (r : BatchReport) (vs : List Visit) : BatchReport :=
  vs.foldl (fun r v => r.add .terminal v.file v.passed) r

section Files

variable {mode : Mode} {k k' : Checker} {w w' : World} {vs : List Visit} {files : List Path}

/-- The rest of a batch is loaded after the files of the visits, whatever their loads came to. -/
theorem Loaded.run_loadFiles (h : Loaded mode k w vs k' w') (rest : List Path) (r : BatchReport) :
    (loadFiles mode (vs.map (·.file) ++ rest) r).run k w =
      (loadFiles mode rest (tally r vs)).run k' w' := by
  induction h generalizing r with
  | nil k w => rfl
  | cons hvisit _ ih => exact (Desk.run_bind_ok hvisit.run_loadFile _).trans (ih _)

theorem Reaches.head (file : Path) (after : List Path) : Reaches mode (file :: after) k w file k w :=
  ⟨[], after, rfl, .nil k w⟩

theorem Reaches.tail {v : Visit} {k₁ k₂ : Checker} {w₁ w₂ : World} (hvisit : v.Leads mode k w k₁ w₁)
    {file : Path} (h : Reaches mode files k₁ w₁ file k₂ w₂) :
    Reaches mode (v.file :: files) k w file k₂ w₂ := by
  obtain ⟨vs, after, rfl, hloaded⟩ := h
  exact ⟨v :: vs, after, rfl, .cons hvisit hloaded⟩

/-- **The files are loaded to the last one** if a batch goes on past each that it gets to. -/
theorem exists_loaded : ∀ {files : List Path} {k : Checker} {w : World},
    (∀ file k₁ w₁, Reaches mode files k w file k₁ w₁ → GoesOn mode file k₁ w₁) →
      ∃ (vs : List Visit) (k' : Checker) (w' : World), vs.map (·.file) = files ∧
        Loaded mode k w vs k' w'
  | [], k, w, _ => ⟨[], k, w, rfl, .nil k w⟩
  | file :: files, k, w, hgo => by
    obtain ⟨v, k₁, w₁, rfl, hvisit⟩ := (hgo file k w (.head file files)).exists_visit
    obtain ⟨vs, k', w', rfl, hloaded⟩ := exists_loaded (k := k₁) (w := w₁)
      fun file k₂ w₂ h => hgo file k₂ w₂ (h.tail hvisit)
    exact ⟨v :: vs, k', w', rfl, .cons hvisit hloaded⟩

/-- A batch that comes to its end has gone on past each file that it got to. -/
theorem goesOn_of_run_ok {r r' : BatchReport}
    (h : (loadFiles mode files r).run k w = ((.ok r', k'), w')) {file : Path} {k₁ : Checker}
    {w₁ : World} (hreach : Reaches mode files k w file k₁ w₁) : GoesOn mode file k₁ w₁ := by
  obtain ⟨vs, after, rfl, hloaded⟩ := hreach
  by_contra hends
  obtain ⟨f, k₂, w₂, hrun⟩ := run_loadFile_of_not_goesOn hends
  rw [hloaded.run_loadFiles, loadFiles, Desk.run_bind_error hrun] at h
  cases h

theorem Visit.Leads.follows {v : Visit} (h : v.Leads mode k w k' w') :
    k.Follows w [(k.setting w v.path mode).command (Command.load v.path.toText)] k' w' ∧
      w'.disk = ((k.setting w v.path mode).load w.disk).2 := by
  obtain ⟨-, ⟨w₁, hload, rfl⟩, -⟩ := h
  obtain ⟨o, k₂, w₂, hrun, hdisk, hf⟩ := k.run_load v.path mode w
  rw [hload] at hrun
  obtain ⟨rfl, rfl⟩ : k' = k₂ ∧ w₁ = w₂ := ⟨congrArg (fun x => x.1.2) hrun, congrArg (·.2) hrun⟩
  refine ⟨⟨fun file mode' => hf.setting file mode', ?_, hf.surroundings⟩, (congrArg (·.2) hdisk).symm⟩
  rw [Journal.commands_append, v.commands_notes, List.append_nil, hf.commands]

/-- The files were handed to the prover one by one, and nothing else was. -/
theorem Loaded.commands_eq (h : Loaded mode k w vs k' w') : w'.journal.commands =
    w.journal.commands ++
      vs.map fun v => (k.setting w v.path mode).command (Command.load v.path.toText) := by
  induction h with
  | nil k w => simp
  | cons hvisit _ ih =>
    have hf := hvisit.follows.1
    simp only [ih, hf.commands, hf.setting, List.append_assoc, List.map_cons, List.singleton_append]

theorem Loaded.surroundings_eq (h : Loaded mode k w vs k' w') : w'.surroundings = w.surroundings := by
  induction h with
  | nil k w => rfl
  | cons hvisit _ ih => exact ih.trans hvisit.follows.1.surroundings

/-- The files that the loads leave behind are those of a table again. -/
theorem Loaded.isTable (h : Loaded mode k w vs k' w') (hd : w.disk.IsTable) : w'.disk.IsTable := by
  induction h with
  | nil k w => exact hd
  | cons hvisit _ ih =>
    refine ih ?_
    rw [hvisit.follows.2]
    exact Script.isTable_reply _ _ hd _

end Files

/-! ## Reports -/

/-- What a report says of files that were visited: each of them once, as one that passed or that
failed. -/
structure Accounts (files : List Path) (vs : List Visit) (r : BatchReport) : Prop where
  once : files.Nodup
  visited : vs.map (·.file) = files
  checked : r.checked.Sublist files
  errored : r.errored.Sublist files
  disjoint : r.checked.Disjoint r.errored
  together : (r.checked ++ r.errored).Perm files
  lines : r.lines = files.map fun file =>
    if file ∈ r.errored then Palette.terminal.coloured .red ("✗ ".toList ++ file.toText)
    else Palette.terminal.coloured .green ("✓ ".toList ++ file.toText)
  verdict : ∀ v ∈ vs, v.file ∈ r.errored ↔
    (∃ f, v.result = .error f) ∨ ∃ m ms, v.result = .ok (m :: ms)
  failed : r.failed = true ↔ r.errored ≠ []

theorem tally_eq (vs : List Visit) (r : BatchReport) : tally r vs =
    { checked := r.checked ++ (vs.filter (·.passed)).map (·.file)
      errored := r.errored ++ (vs.filter (!·.passed)).map (·.file)
      lines := r.lines ++ vs.map (·.line) } := by
  induction vs generalizing r with
  | nil => simp [tally]
  | cons v vs ih =>
    have hcons : tally r (v :: vs) = tally (r.add .terminal v.file v.passed) vs := rfl
    rw [hcons, ih]
    cases hv : v.passed <;> simp [BatchReport.add, hv, Visit.line]

/-- A file stands among those of a kind just if its visit is of that kind. -/
theorem mem_map_filter {vs : List Visit} (hvs : (vs.map (·.file)).Nodup) {v : Visit} (hv : v ∈ vs)
    (p : Visit → Bool) : v.file ∈ (vs.filter p).map (·.file) ↔ p v = true := by
  constructor
  · intro h
    obtain ⟨v', hv', hfile⟩ := List.mem_map.1 h
    obtain ⟨hmem, hp⟩ := List.mem_filter.1 hv'
    rwa [← List.inj_on_of_nodup_map hvs hmem hv hfile]
  · exact fun hp => List.mem_map.2 ⟨v, List.mem_filter.2 ⟨hv, hp⟩, rfl⟩

theorem accounts_tally {vs : List Visit} (hvs : (vs.map (·.file)).Nodup) :
    Accounts (vs.map (·.file)) vs (tally {} vs) := by
  have herrored : ∀ v ∈ vs, v.file ∈ (vs.filter (!·.passed)).map (·.file) ↔ v.passed = false := by
    intro v hv
    rw [mem_map_filter hvs hv, Bool.not_eq_true']
  rw [tally_eq]
  simp only [List.nil_append]
  exact {
    once := hvs
    visited := rfl
    checked := List.filter_sublist.map _
    errored := List.filter_sublist.map _
    disjoint := by
      intro file hchecked hfailed
      obtain ⟨v, hv, rfl⟩ := List.mem_map.1 hchecked
      obtain ⟨hmem, hpassed⟩ := List.mem_filter.1 hv
      rw [(herrored v hmem).1 hfailed] at hpassed
      cases hpassed
    together := by
      rw [← List.map_append]
      exact (List.filter_append_perm _ vs).map _
    lines := by
      rw [List.map_map]
      refine List.map_congr_left fun v hv => ?_
      have h := herrored v hv
      cases hp : v.passed <;> simp only [hp] at h <;> simp [Visit.line, hp, h]
    verdict := fun v hv => (herrored v hv).trans v.passed_eq_false_iff
    failed := by simp [BatchReport.failed] }

/-! ## Batches -/

/-- A batch over a directory loads the source files that are found below it at first. -/
theorem run_eq_loadFiles {directory : Text} {w : World} {files : List Path}
    (hdir : w.isDirectory (Path.ofText directory) = .ok true)
    (hfiles : w.disk.sources (Path.ofText directory) = .ok files) (mode : Mode) (k : Checker) :
    (run directory mode).run k w = (loadFiles mode files {}).run k w := by
  have htest := Desk.run_isDirectory (Path.ofText directory) k w
  have hlook := Desk.run_look (fun d => d.sources (Path.ofText directory)) k w
  rw [hdir] at htest
  rw [hfiles] at hlook
  exact (Desk.run_bind_ok htest _).trans (Desk.run_bind_ok hlook _)

theorem Loaded.run_eq {directory : Text} {mode : Mode} {k k' : Checker} {w w' : World}
    {vs : List Visit} (h : Loaded mode k w vs k' w')
    (hdir : w.isDirectory (Path.ofText directory) = .ok true)
    (hfiles : w.disk.sources (Path.ofText directory) = .ok (vs.map (·.file))) :
    (run directory mode).run k w = ((.ok (tally {} vs), k'), w') := by
  have hrun := h.run_loadFiles [] {}
  rw [List.append_nil] at hrun
  exact (run_eq_loadFiles hdir hfiles mode k).trans hrun

/-- **A batch comes to its end** exactly if its directory is there and its files are found, and every one
of them is visited; its report tells of the visits. -/
theorem run_eq_ok_iff {directory : Text} {mode : Mode} {k : Checker} {w : World} {r : BatchReport} :
    ((run directory mode).run k w).1.1 = .ok r ↔
      ∃ (vs : List Visit) (k' : Checker) (w' : World),
        w.isDirectory (Path.ofText directory) = .ok true ∧
        w.disk.sources (Path.ofText directory) = .ok (vs.map (·.file)) ∧
        Loaded mode k w vs k' w' ∧ tally {} vs = r := by
  constructor
  · intro h
    have htest := Desk.run_isDirectory (Path.ofText directory) k w
    have hlook := Desk.run_look (fun d => d.sources (Path.ofText directory)) k w
    rcases hdir : w.isDirectory (Path.ofText directory) with fault | _ | _
    · rw [hdir] at htest
      rw [run, Desk.run_bind_error htest] at h
      cases h
    · rw [hdir] at htest
      rw [run, Desk.run_bind_ok htest] at h
      cases h
    cases hfiles : w.disk.sources (Path.ofText directory) with
    | error fault =>
      rw [hdir] at htest
      rw [hfiles] at hlook
      have hrun : (run directory mode).run k w = ((.error (.disk fault), k), w) :=
        (Desk.run_bind_ok htest _).trans (Desk.run_bind_error hlook _)
      rw [hrun] at h
      cases h
    | ok files =>
      rw [run_eq_loadFiles hdir hfiles] at h
      rcases hend : (loadFiles mode files {}).run k w with ⟨⟨result, k₀⟩, w₀⟩
      rw [hend] at h
      dsimp only at h
      subst h
      obtain ⟨vs, k', w', rfl, hloaded⟩ :=
        exists_loaded fun file k₁ w₁ hreach => goesOn_of_run_ok hend hreach
      have hrun := hloaded.run_loadFiles [] {}
      rw [List.append_nil, hend] at hrun
      exact ⟨vs, k', w', rfl, rfl, hloaded, (Except.ok.inj (congrArg (·.1.1) hrun)).symm⟩
  · rintro ⟨vs, k', w', hdir, hfiles, hloaded, rfl⟩
    rw [hloaded.run_eq hdir hfiles]

/-- **A batch accounts for every file.**  If it goes on past each of the source files below its
directory, as they are found before the first load, then every one of them is loaded once, in order,
whatever the loads come to and whatever becomes of the files meanwhile; and the report says of each
whether it passed.  What is left is a table again, for the next batch. -/
theorem accounts_for_every_file {directory : Text} {mode : Mode} {k : Checker} {w : World}
    {files : List Path} (hd : w.disk.IsTable)
    (hdir : w.isDirectory (Path.ofText directory) = .ok true)
    (hfiles : w.disk.sources (Path.ofText directory) = .ok files)
    (hgo : ∀ file k₁ w₁, Reaches mode files k w file k₁ w₁ → GoesOn mode file k₁ w₁) :
    ∃ (vs : List Visit) (r : BatchReport) (k' : Checker) (w' : World),
      (run directory mode).run k w = ((.ok r, k'), w') ∧ Loaded mode k w vs k' w' ∧
      w'.journal.commands = w.journal.commands ++
        vs.map (fun v => (k.setting w v.path mode).command (Command.load v.path.toText)) ∧
      Accounts files vs r ∧ w'.disk.IsTable := by
  obtain ⟨vs, k', w', rfl, hloaded⟩ := exists_loaded hgo
  exact ⟨vs, tally {} vs, k', w', hloaded.run_eq hdir hfiles, hloaded,
    hloaded.commands_eq, accounts_tally (Disk.nodup_sources hd hfiles), hloaded.isTable hd⟩

/-! ## Two files -/

namespace Sample

/-- Two source files. -/
def twoFiles : Disk := (({} : Disk).put ["A.agda".toList] (.file [])).put ["B.agda".toList] (.file [])

/-- The two files, as a batch finds them. -/
def files : List Path := [⟨.here, ["A.agda".toList]⟩, ⟨.here, ["B.agda".toList]⟩]

theorem isTable_twoFiles : twoFiles.IsTable :=
  Disk.isTable_put (Disk.isTable_put (d := {}) List.nodup_nil _ _) _ _

theorem isDirectory_twoFiles : twoFiles.isDirectory (Path.ofText ['.']) = .ok true := by
  decide +kernel

theorem sources_twoFiles : twoFiles.sources (Path.ofText ['.']) = .ok files :=
  Disk.sources_of_sorted isDirectory_twoFiles (by decide +kernel) (by decide +kernel)

/-- The process of the first file makes another one, that of the second file fails. -/
def making : World where
  disk := twoFiles
  script := { rules := [
    { pattern := "A.agda".toList, effects := [.write "C.agda".toList []] },
    { pattern := "B.agda".toList, exitCode := 1 }] }

end Sample

section

open Sample

theorem accounts_for_every_file_sample : making.disk.IsTable ∧
    making.isDirectory (Path.ofText ['.']) = .ok true ∧
    making.disk.sources (Path.ofText ['.']) = .ok files ∧
    (∀ file k₁ w₁, Reaches defaultMode files {} making file k₁ w₁ → GoesOn defaultMode file k₁ w₁) ∧
    ∃ (vs : List Visit) (r : BatchReport) (k' : Checker) (w' : World),
      (run ['.'] defaultMode).run {} making = ((.ok r, k'), w') ∧
      Loaded defaultMode {} making vs k' w' ∧ Accounts files vs r ∧
      r.checked = files.take 1 ∧ r.errored = files.drop 1 := by
  have hresult : ((loadFiles defaultMode files {}).run {} making).1.1.toOption.map
      (fun r => (r.checked, r.errored)) = some (files.take 1, files.drop 1) := by
    decide +kernel
  rcases hend : (loadFiles defaultMode files {}).run {} making with ⟨⟨_ | r, k₀⟩, w₀⟩
  · rw [hend] at hresult
    cases hresult
  have hgo : ∀ file k₁ w₁, Reaches defaultMode files {} making file k₁ w₁ →
      GoesOn defaultMode file k₁ w₁ := fun file k₁ w₁ hreach => goesOn_of_run_ok hend hreach
  obtain ⟨vs, r', k', w', hrun, hloaded, -, haccounts, -⟩ :=
    accounts_for_every_file (w := making) isTable_twoFiles isDirectory_twoFiles sources_twoFiles hgo
  rw [← run_eq_loadFiles (w := making) isDirectory_twoFiles sources_twoFiles, hrun] at hresult
  obtain ⟨hchecked, herrored⟩ := Prod.mk.inj (Option.some.inj hresult)
  exact ⟨isTable_twoFiles, isDirectory_twoFiles, sources_twoFiles, hgo, vs, r', k', w', hrun, hloaded,
    haccounts, hchecked, herrored⟩

/-- A process that puts a link in the place of the second file, which leads to itself. -/
def Sample.circle : Rule where
  pattern := "A.agda".toList
  effects := [.remove "B.agda".toList, .link "B.agda".toList "B.agda".toList]

/-- The process of the first file puts a circle in the place of the second one. -/
def Sample.circling : World where
  disk := twoFiles
  script := { rules := [circle] }

/-- Every command is answered with nothing where the process can put the circle. -/
theorem Sample.reply_circling {d : Disk}
    (h : ((Effect.performAll d.home circle.effects).run d).1 = .ok ()) (program command : Text) :
    (circling.script.reply program d command).1 = .ok [] := by
  have hrule : circling.script.ruleFor command = circle ∨ circling.script.ruleFor command = {} := by
    unfold Script.ruleFor circling
    simp only [List.find?_cons, List.find?_nil]
    cases command.hasWord circle.pattern <;> simp
  have hstart : circling.script.startFault? program command = none := by
    rcases hrule with hrule | hrule <;> rw [Script.startFault?, hrule] <;> rfl
  have hreply : circling.script.reply program d command = circling.script.exchange d command := by
    rw [Script.reply, hstart]
  have hinput : circling.script.inputFault? command = none := by
    rcases hrule with hrule | hrule <;> rw [Script.inputFault?, hrule] <;> rfl
  rw [hreply, Script.exchange, hinput]
  rcases hrule with hrule | hrule
  · rw [hrule]
    rcases hrun : (Effect.performAll d.home circle.effects).run d with ⟨_ | _, d'⟩
    · rw [hrun] at h
      cases h
    · rfl
  · rw [hrule]
    rfl

/-- Every load returns where the process can put the circle. -/
theorem Sample.load_circling {k : Checker} {w : World}
    (hk : ∀ file, k.setting w file defaultMode = ({} : Checker).setting circling file defaultMode)
    (hw : ((Effect.performAll w.disk.home circle.effects).run w.disk).1 = .ok ()) (path : Path) :
    ∃ k' w', (Checker.load path defaultMode).run k w = ((.ok [], k'), w') := by
  obtain ⟨o, k', w', hrun, hload, -⟩ := k.run_load path defaultMode w
  have ho : o = .ok Extractor.empty := by
    rw [hk] at hload
    refine (congrArg (·.1) hload).symm.trans ?_
    show Except.bind (circling.script.reply _ _ _).1 _ = _
    rw [reply_circling hw]
    rfl
  subst ho
  exact ⟨k', w', hrun⟩

/-- **A path that is not resolved ends a batch**, though every load returns: a process puts a circle
of links in the place of a file that was found.  The file is not loaded, and there is no report. -/
theorem circle_ends_batch : circling.disk.IsTable ∧
    circling.disk.isDirectory (Path.ofText ['.']) = .ok true ∧
    circling.disk.sources (Path.ofText ['.']) = .ok files ∧
    (∀ file k₁ w₁, Reaches defaultMode files {} circling file k₁ w₁ →
      ∀ path, ∃ k₂ w₂, (Checker.load path defaultMode).run k₁ w₁ = ((.ok [], k₂), w₂)) ∧
    ((run ['.'] defaultMode).run {} circling).1.1 = .error (.disk (.circle "/B.agda".toList)) ∧
    ((run ['.'] defaultMode).run {} circling).2.journal.commands =
      [(({} : Checker).setting circling ⟨.root, ["A.agda".toList]⟩ defaultMode).command
        (Command.load "/A.agda".toList)] := by
  refine ⟨isTable_twoFiles, isDirectory_twoFiles, sources_twoFiles, ?_, ?_⟩
  · rintro file k₁ w₁ ⟨vs, after, hfiles, hloaded⟩ path
    cases hloaded with
    | nil => exact load_circling (fun _ => rfl) (by decide +kernel) path
    | @cons _ k₂ _ _ w₂ _ v vs hvisit hrest =>
      obtain ⟨hfollows, hdisk⟩ := hvisit.follows
      obtain ⟨hfile, hfiles⟩ := List.cons.inj hfiles
      cases hrest with
      | nil =>
        have hresolve : circling.disk.resolve ⟨.here, ["A.agda".toList]⟩ =
            .ok ⟨.root, ["A.agda".toList]⟩ := by decide +kernel
        have hpath : v.path = ⟨.root, ["A.agda".toList]⟩ :=
          Except.ok.inj (hvisit.path.symm.trans
            ((congrArg circling.disk.resolve hfile).symm.trans hresolve))
        rw [hpath] at hdisk
        refine load_circling (fun file => hfollows.setting file defaultMode) ?_ path
        rw [hdisk]
        decide +kernel
      | cons _ _ => simp at hfiles
  · rw [run_eq_loadFiles (w := circling) isDirectory_twoFiles sources_twoFiles]
    decide +kernel

end

end Batch

end AgdaFrontEnd
