import AgdaFrontEnd.Proofs.Batch.Accounts
import AgdaFrontEnd.Proofs.CommandLine.Run

/-!
# What becomes of a command line

Every command of the program ends with zero or one, unless a failure escapes.  It is known beforehand
when that is zero, what is printed then, and that nothing is done for an argument that cannot be used.

* `CommandLine.Usable`: the argument of a request can be used.
* `CommandLine.yields_code`: the codes of the program.
* `CommandLine.inert_perform`: nothing is done for other arguments.
* `CommandLine.Passes`, `CommandLine.AllPass`: a check, or the checks of a directory, find no error.
* `CommandLine.Conduct`: what becomes of a request.
* `CommandLine.run_conduct`: that is what becomes of every request.
-/

namespace AgdaFrontEnd

/-! ## Values of activities -/

/-- If the activity does not fail, it gives such a value. -/
def Act.Yields (P : α → Prop) (a : Act α) : Prop := ∀ w x, (a.run w).1 = .ok x → P x

theorem Act.yields_pure {P : α → Prop} {x : α} (h : P x) : Yields P (pure x) := by
  intro w y hy
  cases hy
  exact h

theorem Act.Yields.bind {P : β → Prop} (a : Act α) {f : α → Act β} (hf : ∀ x, Yields P (f x)) :
    Yields P (a >>= f) := by
  intro w y h
  rcases hrun : a.run w with ⟨e | x, w'⟩
  · rw [run_bind_error hrun] at h
    cases h
  · rw [run_bind_ok hrun] at h
    exact hf x w' y h

/-- The argument names a source file: it ends like one, the file system takes it, and the path that it is
resolved to is that of a regular file. -/
def World.HoldsSource (w : World) (argument : Option Text) : Prop :=
  ∃ t path, argument = some t ∧ Text.endsWith t sourceSuffix = true ∧
    w.surroundings.pathFault (Path.ofText t) = none ∧
    w.disk.resolve (Path.ofText t) = .ok path ∧ w.disk.isFile path = .ok true

theorem World.holdsSource_iff {w : World} {argument : Option Text} :
    w.HoldsSource argument ↔ ∃ path, w.sourceArgument argument = .ok path := by
  constructor
  · rintro ⟨t, path, rfl, hends, hpath, hresolve, hfile⟩
    cases t with
    | nil => cases hends
    | cons c t =>
      refine ⟨path, ?_⟩
      unfold sourceArgument
      dsimp only
      rw [if_pos hends, hpath]
      dsimp only
      rw [hresolve]
      dsimp only
      rw [hfile]
      rfl
  · rintro ⟨path, h⟩
    unfold sourceArgument at h
    split at h
    · cases h
    · cases h
    rename_i t _
    split at h
    · rename_i hends
      split at h
      · cases h
      · rename_i hpath
        split at h
        · cases h
        · rename_i p hresolve
          split at h
          · cases h
          · rename_i found hfile
            cases found with
            | false => cases h
            | true => exact ⟨t, p, rfl, hends, hpath, hresolve, hfile⟩
    · cases h

namespace CommandLine

variable (prover : Option Text)

/-! ## Codes -/

/-- The codes of the program. -/
def IsCode (n : Nat) : Prop := n = 0 ∨ n = 1

theorem yields_zero : Act.Yields IsCode (pure 0) := Act.yields_pure (.inl rfl)

theorem yields_one : Act.Yields IsCode (pure 1) := Act.yields_pure (.inr rfl)

theorem yields_check (o : CheckOptions) (evaluate : Bool) :
    Act.Yields IsCode (check prover o evaluate) := by
  unfold check
  refine .bind _ fun r => ?_
  cases r.failed with
  | true => exact .bind _ fun _ => yields_one
  | false =>
    cases evaluate with
    | false => exact .bind _ fun _ => yields_zero
    | true =>
      cases r.blocks.isEmpty with
      | true => exact .bind _ fun _ => yields_zero
      | false => exact .bind _ fun _ => .bind _ fun _ => yields_zero

theorem yields_serve (e : Endpoint) : Act.Yields IsCode (serve e) := by
  unfold serve
  dsimp only
  split
  · exact .bind _ fun _ => .bind _ fun _ => yields_zero
  · exact .bind _ fun _ => yields_zero

/-- **Every request that ends ends with zero or one.** -/
theorem yields_code (request : Request) : Act.Yields IsCode (perform prover request) := by
  rcases request with o | o | ⟨_ | _ | _, text⟩ | ⟨path, run⟩ | path | e
  · exact yields_check prover o false
  · exact yields_check prover o true
  · exact .bind _ fun _ => yields_one
  · exact .bind _ fun _ => yields_one
  · refine .bind _ fun r => .bind _ fun _ => ?_
    cases r.failed with
    | true => exact yields_one
    | false => exact yields_zero
  · refine .bind _ fun file => .bind _ fun _ => .bind _ fun executable => ?_
    cases run with
    | true => exact yields_zero
    | false => exact .bind _ fun _ => .bind _ fun _ => yields_zero
  · exact .bind _ fun _ => .bind _ fun _ => .bind _ fun _ => .bind _ fun _ => .bind _ fun _ =>
      .bind _ fun _ => .bind _ fun _ => yields_zero
  · exact yields_serve e

/-! ## Arguments that cannot be used -/

/-- The argument of a request can be used: it names a source file, or a directory. -/
def Usable (w : World) : Request → Prop
  | .check o | .run o => w.HoldsSource o.path
  | .compile path _ | .package path => w.HoldsSource path
  | .checkAll directory _ =>
    ∃ t, directory = some t ∧ t ≠ [] ∧ w.isDirectory (Path.ofText t) = .ok true
  | .serve _ => True

/-- No batch is begun but below a directory. -/
theorem exists_run_of_not_directory {directory : Text} {mode : Mode} {k : Checker} {w : World}
    (h : w.isDirectory (Path.ofText directory) ≠ .ok true) :
    ∃ f, (Batch.run directory mode).run k w = ((.error f, k), w) := by
  have htest := Desk.run_isDirectory (Path.ofText directory) k w
  unfold Batch.run
  rcases hdir : w.isDirectory (Path.ofText directory) with fault | _ | _
  · rw [hdir] at htest
    exact ⟨_, Desk.run_bind_error htest _⟩
  · rw [hdir] at htest
    exact ⟨_, Desk.run_bind_ok htest _⟩
  · exact absurd hdir h

/-- In this world the activity writes to the outputs at most, and gives no other code than one. -/
def Inert (a : Act Nat) (w : World) : Prop :=
  ∃ r outs, a.run w = (r, { w with journal := w.journal ++ outs }) ∧
    (∀ e ∈ outs, Event.IsOutput e) ∧ ∀ n, r = .ok n → n = 1

section Inert

variable {prover} {a : Act Nat} {w : World} {argument : Option Text} {request : Request}

theorem inert_of_error {f : Failure} (h : a.run w = (.error f, w)) : Inert a w :=
  ⟨.error f, [], by rw [h, List.append_nil], by simp, by simp⟩

theorem inert_complain (t : Text) (w : World) : Inert (do Act.complain t; return 1) w :=
  ⟨.ok 1, _, run_bind_ok (Act.run_note _ w) _, by simp [Event.IsOutput], by simp⟩

theorem exists_error_of_not_holdsSource (h : ¬ w.HoldsSource argument) :
    ∃ f, w.sourceArgument argument = .error f := by
  cases hs : w.sourceArgument argument with
  | error f => exact ⟨f, rfl⟩
  | ok path => exact absurd (World.holdsSource_iff.2 ⟨path, hs⟩) h

theorem inert_check {o : CheckOptions} (h : ¬ w.HoldsSource o.path) (evaluate : Bool) :
    Inert (check prover o evaluate) w := by
  obtain ⟨f, hf⟩ := exists_error_of_not_holdsSource h
  exact inert_of_error (run_bind_error (Tools.run_checkFile_error hf) _)

theorem inert_sourceArgument (h : ¬ w.HoldsSource argument) (k : Path → Act Nat) :
    Inert (sourceArgument argument >>= k) w := by
  obtain ⟨f, hf⟩ := exists_error_of_not_holdsSource h
  have harg := run_sourceArgument argument w
  rw [hf] at harg
  exact inert_of_error (run_bind_error harg _)

theorem inert_checkAll {directory : Text} (h : w.isDirectory (Path.ofText directory) ≠ .ok true)
    (text : Bool) : Inert (checkAll prover directory text) w := by
  obtain ⟨f, hf⟩ := exists_run_of_not_directory h
  exact inert_of_error (run_bind_error (by rw [Tools.run_atDesk, hf]) _)

/-- **Nothing is done for an argument that cannot be used.** -/
theorem inert_perform (h : ¬ Usable w request) : Inert (perform prover request) w := by
  rcases request with o | o | ⟨_ | _ | ⟨c, t⟩, text⟩ | ⟨path, run⟩ | path | e
  · exact inert_check h false
  · exact inert_check h true
  · exact inert_complain _ w
  · exact inert_complain _ w
  · exact inert_checkAll (fun hdir => h ⟨c :: t, rfl, by simp, hdir⟩) text
  · exact inert_sourceArgument h _
  · exact inert_sourceArgument h _
  · exact absurd trivial h

/-- A failure that is told is written to an output. -/
theorem Inert.performReported (h : Inert (perform prover request) w) :
    Inert (performReported prover request) w := by
  obtain ⟨r, outs, hrun, houts, hr⟩ := h
  refine ⟨(reported request r).1, outs ++ (reported request r).2, ?_, fun e he => ?_, fun n hn => ?_⟩
  · rw [run_performReported, hrun, ← List.append_assoc]
  · exact (List.mem_append.1 he).elim (houts e) isOutput_of_mem_reported
  · rcases reported_eq_ok (fun m hm => .inr (hr m hm)) hn with rfl | rfl
    · exact hr 0 (reported_eq_zero_iff.1 hn)
    · rfl

end Inert

/-! ## Checks -/

/-- The check of the file that the argument names returns a report without errors. -/
def Passes (evaluate : Bool) (o : CheckOptions) (w : World) (r : Report) : Prop :=
  ∃ path d, w.sourceArgument o.path = .ok path ∧
    ((Tools.checkerFor prover (modeOf o evaluate)).setting w path (modeOf o evaluate)).Returns
      w.disk r d ∧ r.failed = false

/-- What is printed for a report without errors: the report, or its result, before which the report
stands if it has blocks. -/
def findings (evaluate : Bool) (r : Report) : Text :=
  if evaluate then
    (if r.blocks = [] then [] else r.text ++ ['\n']) ++ (Tools.shownResult r ++ ['\n'])
  else r.text ++ ['\n']

variable {prover} {evaluate : Bool} {o : CheckOptions}

theorem passes_iff {w : World} {r : Report} : Passes prover evaluate o w r ↔
    Tools.checkedBy prover (modeOf o evaluate) w o.path = .ok r ∧ r.failed = false := by
  rw [Tools.checkedBy_eq_ok_iff]
  constructor
  · rintro ⟨path, d, ha, hreturns, hr⟩
    exact ⟨⟨path, d, ha, hreturns⟩, hr⟩
  · rintro ⟨⟨path, d, ha, hreturns⟩, hr⟩
    exact ⟨path, d, ha, hreturns, hr⟩

theorem findings_eq {r : Report} :
    findings evaluate r = (texts evaluate r).flatMap fun t => t ++ ['\n'] := by
  cases evaluate with
  | false => exact texts_check.symm
  | true => exact texts_run.symm

section Concluded

variable {s : Surroundings} {c : Except Failure Report}

/-- A check that is concluded with a code has passed exactly if the code is zero. -/
theorem concluded_ok {n : Nat} (h : (concluded s evaluate o c).1 = .ok n) :
    n = 0 ↔ ∃ r, c = .ok r ∧ r.failed = false := by
  cases c with
  | error f =>
    have hn : n ≠ 0 := by
      rintro rfl
      cases reported_eq_zero_iff.1 h
    simp [hn]
  | ok r =>
    cases hr : r.failed with
    | true =>
      rw [concluded, written_of_failed hr] at h
      obtain rfl := Except.ok.inj h
      simp [hr]
    | false =>
      rw [concluded, written_of_passed hr] at h
      obtain ⟨-, rfl⟩ := (printing_eq_ok_iff s).1 h
      simp [hr]

/-- A check that has passed is concluded with zero, unless the output refuses something. -/
theorem concluded_of_passed {r : Report} (h : r.failed = false) :
    (concluded s evaluate o (.ok r)).1 = .ok 0 ∨
      ∃ wording, refusal? s (texts evaluate r) = some wording ∧
        (concluded s evaluate o (.ok r)).1 = .error (.unencodable wording) := by
  rw [concluded, written_of_passed h]
  cases hs : refusal? s (texts evaluate r) with
  | none =>
    rw [printing_of_refusal_eq_none s hs]
    exact .inl rfl
  | some wording => exact .inr ⟨wording, rfl, printing_of_refusal s hs⟩

/-- What a check prints that has passed and is concluded. -/
theorem stdout_concluded_of_passed {r : Report} {n : Nat} (h : r.failed = false)
    (hn : (concluded s evaluate o (.ok r)).1 = .ok n) :
    Journal.stdout (concluded s evaluate o (.ok r)).2 = findings evaluate r := by
  rw [concluded, written_of_passed h] at hn ⊢
  rw [printing_of_refusal_eq_none s ((printing_eq_ok_iff s).1 hn).1, stdout_printed, findings_eq]

/-- Nothing is printed before the code one. -/
theorem stdout_concluded (h : (concluded s evaluate o c).1 = .ok 1) :
    Journal.stdout (concluded s evaluate o c).2 = [] := by
  cases c with
  | ok r =>
    cases hr : r.failed with
    | true =>
      rw [concluded, written_of_failed hr]
      rfl
    | false =>
      rw [concluded, written_of_passed hr] at h
      cases ((printing_eq_ok_iff s).1 h).2
  | error f =>
    rw [concluded, reported]
    split <;> rfl

end Concluded

variable (prover)

/-! ## Directories -/

/-- Every source file that is found below the directory is loaded, in order, in these visits, and no
error is found. -/
def AllPassIn (directory : Text) (text : Bool) (w : World) (vs : List Batch.Visit) : Prop :=
  ∃ (k : Checker) (w' : World),
    w.isDirectory (Path.ofText directory) = .ok true ∧
    w.disk.sources (Path.ofText directory) = .ok (vs.map (·.file)) ∧
    Batch.Loaded (Tools.quietMode text false)
      (Tools.checkerFor prover (Tools.quietMode text false)) w vs k w' ∧
    ∀ v ∈ vs, v.result = .ok []

/-- No error is found in any source file below the directory. -/
def AllPass (directory : Text) (text : Bool) (w : World) : Prop :=
  ∃ vs, AllPassIn prover directory text w vs

theorem failed_tally {vs : List Batch.Visit} :
    (Batch.tally {} vs).failed = false ↔ ∀ v ∈ vs, v.result = .ok [] := by
  have hpassed : ∀ v : Batch.Visit, v.passed = true ↔ v.result = .ok [] := by
    rintro ⟨_, _, _ | _ | _⟩ <;> simp [Batch.Visit.passed]
  rw [Batch.tally_eq]
  simp [BatchReport.failed, hpassed]

section CheckAll

variable {prover} {directory : Text} {text : Bool} {k' : Checker} {w w' : World}

theorem checkAll_of_error {f : Failure} (h : (Batch.run directory (Tools.quietMode text false)).run
    (Tools.checkerFor prover (Tools.quietMode text false)) w = ((.error f, k'), w')) :
    ((checkAll prover directory text).run w).1 = .error f := by
  have hdesk := Tools.run_atDesk (Tools.checkerFor prover (Tools.quietMode text false))
    (Batch.run directory (Tools.quietMode text false)) w
  rw [h] at hdesk
  exact congrArg Prod.fst (run_bind_error hdesk _)

theorem checkAll_of_ok {r : BatchReport} (h : (Batch.run directory (Tools.quietMode text false)).run
    (Tools.checkerFor prover (Tools.quietMode text false)) w = ((.ok r, k'), w')) :
    ((checkAll prover directory text).run w).1 =
      (printing w'.surroundings (if r.failed then 1 else 0) [r.text .terminal]).1 := by
  have hdesk := Tools.run_atDesk (Tools.checkerFor prover (Tools.quietMode text false))
    (Batch.run directory (Tools.quietMode text false)) w
  rw [h] at hdesk
  have hrun : (checkAll prover directory text).run w =
      (printAll (if r.failed then 1 else 0) [r.text .terminal]).run w' := run_bind_ok hdesk _
  rw [hrun, run_printAll]

/-- The check of a directory that ends with a code has passed exactly if the code is zero. -/
theorem checkAll_ok {n : Nat} (h : ((checkAll prover directory text).run w).1 = .ok n) :
    n = 0 ↔ AllPass prover directory text w := by
  rcases hrun : (Batch.run directory (Tools.quietMode text false)).run
      (Tools.checkerFor prover (Tools.quietMode text false)) w with ⟨⟨f | r, k⟩, w'⟩
  · rw [checkAll_of_error hrun] at h
    cases h
  · rw [checkAll_of_ok hrun] at h
    obtain ⟨-, rfl⟩ := (printing_eq_ok_iff _).1 h
    obtain ⟨vs, k', w', hdir, hfiles, hloaded, rfl⟩ :=
      Batch.run_eq_ok_iff.1 (congrArg (·.1.1) hrun)
    have hcode : (if (Batch.tally {} vs).failed then 1 else 0) = 0 ↔
        (Batch.tally {} vs).failed = false := by
      cases (Batch.tally {} vs).failed <;> simp
    rw [hcode]
    constructor
    · exact fun hfailed => ⟨vs, k', w', hdir, hfiles, hloaded, failed_tally.1 hfailed⟩
    · rintro ⟨vs', k'', w'', hdir', hfiles', hloaded', hall⟩
      have hsame := (hloaded.run_eq hdir hfiles).symm.trans (hloaded'.run_eq hdir' hfiles')
      rw [Except.ok.inj (congrArg (·.1.1) hsame)]
      exact failed_tally.2 hall

/-- If all files pass, the check of a directory ends with zero, unless the output refuses the summary. -/
theorem checkAll_of_allPassIn {vs : List Batch.Visit} (h : AllPassIn prover directory text w vs) :
    ((checkAll prover directory text).run w).1 = .ok 0 ∨
      ∃ wording, w.surroundings.outputFault ((Batch.tally {} vs).text .terminal) = some wording ∧
        ((checkAll prover directory text).run w).1 = .error (.unencodable wording) := by
  obtain ⟨k, w', hdir, hfiles, hloaded, hall⟩ := h
  have hcode : (if (Batch.tally {} vs).failed then 1 else 0) = 0 := by rw [failed_tally.2 hall]; rfl
  rw [checkAll_of_ok (hloaded.run_eq hdir hfiles), hloaded.surroundings_eq, hcode, printing]
  cases hfault : w.surroundings.outputFault ((Batch.tally {} vs).text .terminal) with
  | none => exact .inl rfl
  | some wording => exact .inr ⟨wording, rfl, rfl⟩

end CheckAll

/-! ## Conduct -/

/-- What becomes of a request from the world `w`: the outcome of the program, and the world after it. -/
structure Conduct (verbose : Bool) (request : Request) (w : World) (outcome : Except Failure Nat)
    (w' : World) : Prop where
  /-- The program ends with zero or one. -/
  code : ∀ n, outcome = .ok n → IsCode n
  /-- For an argument that cannot be used it ends with one.  No process is started then, and no file is
  changed. -/
  unusable : ¬ Usable w request → (∀ n, outcome = .ok n → n = 1) ∧ w'.disk = w.disk ∧
    ∃ es : Journal, w'.journal = w.journal ++ es ∧ es.starts = []
  /-- A check that ends does so with zero exactly if it returns a report without errors. -/
  passes : ∀ evaluate o n, request = asked evaluate o → outcome = .ok n →
    (n = 0 ↔ ∃ r, Passes prover evaluate o w r)
  /-- What was found is printed then, and nothing else. -/
  printed : ∀ evaluate o r n, request = asked evaluate o → Passes prover evaluate o w r →
    outcome = .ok n → ∃ es : Journal, w'.journal = w.journal ++ es ∧ es.stdout = findings evaluate r
  /-- A check that returns a report without errors ends with zero, unless the output refuses something
  of what was found. -/
  refused : ∀ evaluate o r, request = asked evaluate o → Passes prover evaluate o w r →
    outcome = .ok 0 ∨ ∃ wording, refusal? w.surroundings (texts evaluate r) = some wording ∧
      outcome = .error (.unencodable wording)
  /-- A check that ends with one prints nothing. -/
  silent : ∀ evaluate o, request = asked evaluate o → outcome = .ok 1 →
    ∃ es : Journal, w'.journal = w.journal ++ es ∧ es.stdout = []
  /-- The check of a directory that ends does so with zero exactly if every file that is found passes. -/
  allPass : ∀ directory text n, request = .checkAll directory text → outcome = .ok n →
    (n = 0 ↔ ∃ t, directory = some t ∧ t ≠ [] ∧ AllPass prover t text (logging verbose w))
  /-- If every file passes, it ends with zero, unless the output refuses the summary. -/
  allRefused : ∀ t text vs, request = .checkAll (some t) text → t ≠ [] →
    AllPassIn prover t text (logging verbose w) vs → outcome = .ok 0 ∨
      ∃ wording, w.surroundings.outputFault ((Batch.tally {} vs).text .terminal) = some wording ∧
        outcome = .error (.unencodable wording)

variable (verbose : Bool) (w : World)

theorem starts_logged : Journal.starts (logged verbose) = [] := by
  cases verbose <;> rfl

theorem silent_logging : w.Silent (logging verbose w) := by
  refine ⟨⟨logged verbose, journal_logging verbose w, fun e he => ?_⟩, surroundings_logging verbose w⟩
  cases verbose with
  | false => cases he
  | true =>
    cases List.mem_singleton.1 he
    exact id

/-- What becomes of a request for a check: before what is concluded of it nothing is printed. -/
theorem run_asked_logging (evaluate : Bool) (o : CheckOptions) : ∃ (w' : World) (es : Journal),
    (performReported prover (asked evaluate o)).run (logging verbose w) =
        ((concluded w.surroundings evaluate o
            (Tools.checkedBy prover (modeOf o evaluate) w o.path)).1, w') ∧
      es.stdout = [] ∧ w'.journal = w.journal ++ (es ++ (concluded w.surroundings evaluate o
        (Tools.checkedBy prover (modeOf o evaluate) w o.path)).2) := by
  obtain ⟨w₁, -, hcheck, hrun⟩ := run_asked prover evaluate o (logging verbose w)
  obtain ⟨es, hes, hsilent⟩ := ((silent_logging verbose w).trans hcheck).events
  rw [checkedBy_logging, surroundings_logging] at hrun
  refine ⟨_, es, hrun, Journal.stdout_of_silent hsilent, ?_⟩
  rw [← List.append_assoc, ← hes]

/-- A request for the check of a directory that ends has passed exactly if its code is zero. -/
theorem checkAll_request_ok {directory : Option Text} {text : Bool} {w : World} {n : Nat}
    (h : ((performReported prover (.checkAll directory text)).run w).1 = .ok n) :
    n = 0 ↔ ∃ t, directory = some t ∧ t ≠ [] ∧ AllPass prover t text w := by
  have hnone : ((perform prover (.checkAll directory text)).run w).1 = .ok 1 → n ≠ 0 := by
    intro hone hn
    rw [run_performReported, hone, hn] at h
    cases h
  rcases directory with _ | _ | ⟨c, t⟩
  · simp [hnone rfl]
  · simp [hnone rfl]
  · have hperform : perform prover (.checkAll (some (c :: t)) text) = checkAll prover (c :: t) text :=
      rfl
    rw [run_performReported, hperform] at h
    cases hc : ((checkAll prover (c :: t) text).run w).1 with
    | ok m =>
      rw [hc] at h
      obtain rfl := Except.ok.inj h
      simp [checkAll_ok hc]
    | error f =>
      have hn : n ≠ 0 := by
        rintro rfl
        rw [hc] at h
        cases reported_eq_zero_iff.1 h
      have hnot : ¬ AllPass prover (c :: t) text w := by
        rintro ⟨vs, hall⟩
        rcases checkAll_of_allPassIn hall with hzero | ⟨wording, -, herror⟩
        · rw [hc] at hzero
          cases hzero
        · rw [hc] at herror
          obtain rfl := Except.error.inj herror
          rw [hc] at h
          cases h
      simp [hn, hnot]

/-- What becomes of a request, once logging is set. -/
theorem conduct_performReported (request : Request) : Conduct prover verbose request w
    ((performReported prover request).run (logging verbose w)).1
    ((performReported prover request).run (logging verbose w)).2 where
  code := by
    intro n hn
    rw [run_performReported] at hn
    exact reported_eq_ok (yields_code prover request _) hn
  unusable := by
    intro hnot
    have husable : Usable (logging verbose w) request ↔ Usable w request := by
      cases verbose <;> rfl
    have hinert : Inert (perform prover request) (logging verbose w) :=
      inert_perform (mt husable.1 hnot)
    obtain ⟨r, outs, hrun, houts, hr⟩ := hinert.performReported
    rw [hrun]
    refine ⟨hr, disk_logging verbose w, logged verbose ++ outs, ?_, ?_⟩
    · rw [← List.append_assoc, ← journal_logging]
    · rw [Journal.starts_append_output _ houts, starts_logged]
  passes := by
    rintro evaluate o n rfl hn
    obtain ⟨w', es, hrun, -, -⟩ := run_asked_logging prover verbose w evaluate o
    rw [hrun] at hn
    simp only [concluded_ok hn, passes_iff]
  printed := by
    rintro evaluate o r n rfl hpasses hn
    obtain ⟨hchecked, hr⟩ := passes_iff.1 hpasses
    obtain ⟨w', es, hrun, hes, hjournal⟩ := run_asked_logging prover verbose w evaluate o
    rw [hrun] at hn ⊢
    refine ⟨_, hjournal, ?_⟩
    rw [hchecked] at hn ⊢
    rw [Journal.stdout_append, hes, List.nil_append]
    exact stdout_concluded_of_passed hr hn
  refused := by
    rintro evaluate o r rfl hpasses
    obtain ⟨hchecked, hr⟩ := passes_iff.1 hpasses
    obtain ⟨w', es, hrun, -, -⟩ := run_asked_logging prover verbose w evaluate o
    rw [hrun, hchecked]
    exact concluded_of_passed hr
  silent := by
    rintro evaluate o rfl hone
    obtain ⟨w', es, hrun, hes, hjournal⟩ := run_asked_logging prover verbose w evaluate o
    rw [hrun] at hone ⊢
    refine ⟨_, hjournal, ?_⟩
    rw [Journal.stdout_append, hes, List.nil_append]
    exact stdout_concluded hone
  allPass := by
    rintro directory text n rfl hn
    exact checkAll_request_ok prover hn
  allRefused := by
    rintro t text vs rfl ht hall
    have hperform : perform prover (.checkAll (some t) text) = checkAll prover t text := by
      cases t with
      | nil => exact absurd rfl ht
      | cons c t => rfl
    rw [run_performReported, hperform]
    rcases checkAll_of_allPassIn hall with hzero | ⟨wording, hfault, herror⟩
    · rw [hzero]
      exact .inl rfl
    · rw [herror]
      exact .inr ⟨wording, surroundings_logging verbose w ▸ hfault, rfl⟩

variable {prover verbose}

/-- **What becomes of a command line** that is understood. -/
theorem run_conduct {args : List Text} {request : Request}
    (h : Invocation.ofArguments args = .ok ⟨prover, verbose, some request⟩) (w : World) :
    ∃ outcome w', (run args).run w = (outcome, w') ∧
      Conduct prover verbose request w outcome w' :=
  ⟨_, _, run_of_arguments prover h w, conduct_performReported prover verbose w request⟩

/-- A world with two empty source files, and a prover that is silent. -/
def sampleWorld : World where
  disk := Batch.Sample.twoFiles

theorem run_conduct_sample :
    Invocation.ofArguments ["check".toList, "A.agda".toList] =
        .ok ⟨none, false, some (.check ⟨some "A.agda".toList, false, false, false⟩)⟩ ∧
      ∃ outcome w', (run ["check".toList, "A.agda".toList]).run sampleWorld = (outcome, w') ∧
        Conduct none false (.check ⟨some "A.agda".toList, false, false, false⟩) sampleWorld outcome
          w' ∧ outcome = .ok 0 ∧ w'.journal.stdout = "Checked.\n".toList := by
  have hread : Invocation.ofArguments ["check".toList, "A.agda".toList] =
      .ok ⟨none, false, some (.check ⟨some "A.agda".toList, false, false, false⟩)⟩ := by
    decide +kernel
  obtain ⟨outcome, w', hrun, hconduct⟩ := run_conduct hread sampleWorld
  refine ⟨hread, outcome, w', hrun, hconduct, ?_, ?_⟩
  · refine (congrArg Prod.fst hrun).symm.trans ?_
    decide +kernel
  · refine (congrArg (fun x => x.2.journal.stdout) hrun).symm.trans ?_
    decide +kernel

end CommandLine

end AgdaFrontEnd
