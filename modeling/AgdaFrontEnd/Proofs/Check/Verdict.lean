import AgdaFrontEnd.Proofs.Check.Protocol

/-!
# The verdict of a check

In a given setting and on a given file system a check comes to one verdict: a report, or the step at
which it fails and the failure.

* `Setting.verdict`: the verdict, as a function.
* `Setting.verdict_eq_ok_iff`, `Setting.verdict_eq_error_iff`: what a check returns, or the step at
  which it fails, is the verdict; so there is just one of both.
* `Setting.report`, `Setting.sent`, `Setting.stage`: what a check of such a verdict gives, the commands
  that it hands out, and the stage that it comes to.
* `Checker.check_course`: a check does as its verdict tells.
-/

namespace AgdaFrontEnd

namespace Checking.Setting

/-- What asking for the goals at holes comes to, the first of which is the `k`-th: the extractor with
the items of the answers and the file system after them, or the number of the hole at which asking
fails. -/
def askFrom (c : Setting) : (k : Nat) → List Hole → Extractor → Disk →
    Except (Nat × Failure) (Extractor × Disk)
  | _, [], x, d => .ok (x, d)
  | k, h :: hs, x, d =>
    match c.askHole h x d with
    | (.ok x, d) => c.askFrom (k + 1) hs x d
    | (.error f, _) => .error (k, f)

/-- What loading and reading the file come to: its text, and the extractor and the file system after
loading. -/
def opening (c : Setting) (d : Disk) : Except (Step × Failure) (Text × Extractor × Disk) :=
  match c.load d with
  | (.error f, _) => .error (.load, f)
  | (.ok x, d) =>
    match d.source c.file with
    | .error f => .error (.source, f)
    | .ok content => .ok (content, x, d)

/-- What evaluating and rendering come to. -/
def closing (c : Setting) (content : Text) (x : Extractor) (d : Disk) :
    Except (Step × Failure) (Report × Disk) :=
  match c.result d with
  | (.error f, _) => .error (.evaluation, f)
  | (.ok result, d) =>
    match (blocks c.file content x.items).outcomeOn d with
    | .error f => .error (.blocks, f)
    | .ok bs => .ok (⟨bs, x.items.any isDiagnostic, result⟩, d)

/-- The verdict of a check: the report and the file system after it, or the step at which it fails. -/
def verdict (c : Setting) (d : Disk) : Except (Step × Failure) (Report × Disk) :=
  match c.opening d with
  | .error e => .error e
  | .ok (content, x, d) =>
    match c.askFrom 0 (Hole.scan content) x d with
    | .error (k, f) => .error (.hole k, f)
    | .ok (x, d) => c.closing content x d

variable {c : Setting} {d d' : Disk} {x x' : Extractor}

theorem askFrom_of_askHoles : ∀ {hs : List Hole} (k : Nat) {x : Extractor} {d : Disk},
    c.askHoles hs x d = (.ok x', d') → c.askFrom k hs x d = .ok (x', d')
  | [], k, x, d, h => by
    cases h
    rfl
  | o :: hs, k, x, d, h => by
    rw [askHoles] at h
    rw [askFrom]
    rcases ho : c.askHole o x d with ⟨_ | y, e⟩
    · rw [ho] at h
      cases h
    · rw [ho] at h
      exact askFrom_of_askHoles (k + 1) h

theorem askFrom_of_askHole : ∀ {hs : List Hole} (k : Nat) {n : Nat} {o : Hole} {f : Failure}
    {x : Extractor} {d e : Disk}, c.askHoles (hs.take n) x d = (.ok x', d') → hs[n]? = some o →
      c.askHole o x' d' = (.error f, e) → c.askFrom k hs x d = .error (k + n, f)
  | [], k, n, o, f, x, d, e, _, ho, _ => by cases ho
  | h :: hs, k, 0, o, f, x, d, e, hx, ho, hf => by
    cases hx
    cases ho
    rw [askFrom, hf]
    rfl
  | h :: hs, k, n + 1, o, f, x, d, e, hx, ho, hf => by
    rw [List.take_succ_cons, askHoles] at hx
    rw [askFrom]
    rcases hh : c.askHole h x d with ⟨_ | y, d₁⟩
    · rw [hh] at hx
      cases hx
    · rw [hh] at hx
      have ih := askFrom_of_askHole (k + 1) hx ho hf
      rw [Nat.add_right_comm] at ih
      exact ih

theorem opening_of_opened {content : Text} (h : c.Opened d content x d') :
    c.opening d = .ok (content, x, d') := by
  rw [opening, h.load]
  dsimp only
  rw [h.source]

theorem opened_of_opening {content : Text} (h : c.opening d = .ok (content, x, d')) :
    c.Opened d content x d' := by
  unfold opening at h
  split at h
  · cases h
  · rename_i hl
    split at h
    · cases h
    · rename_i hs
      cases h
      exact ⟨hl, hs⟩

theorem verdict_of_opened {content : Text} (h : c.Opened d content x d') :
    c.verdict d = match c.askFrom 0 (Hole.scan content) x d' with
      | .error (k, f) => .error (.hole k, f)
      | .ok (x, d) => c.closing content x d := by
  rw [verdict, opening_of_opened h]

theorem verdict_of_asked {content : Text} (h : c.Asked d (Hole.scan content).length content x d') :
    c.verdict d = c.closing content x d' := by
  obtain ⟨x₁, d₁, hopen, hasked⟩ := h
  rw [List.take_length] at hasked
  rw [verdict_of_opened hopen, askFrom_of_askHoles 0 hasked]

/-- The evaluation that is made and fails gives no result. -/
theorem result_of_evaluation {f : Failure} (hw : c.mode.evaluate = true)
    (h : c.evaluation d = (.error f, d')) : c.result d = (.error f, d') := by
  rw [result, if_pos hw, h]
  rfl

/-- **What a check returns is its verdict.** -/
theorem Returns.verdict_eq {r : Report} (h : c.Returns d r d') : c.verdict d = .ok (r, d') := by
  obtain ⟨content, x, ⟨d₁, hasked, hresult⟩, hblocks, hfailed⟩ := h
  rw [verdict_of_asked hasked, closing, hresult]
  dsimp only
  rw [hblocks, ← hfailed]

/-- **The step at which a check fails is its verdict.** -/
theorem Fails.verdict_eq {step : Step} {f : Failure} (h : c.Fails d step f) :
    c.verdict d = .error (step, f) := by
  cases h with
  | load h => rw [verdict, opening, h]
  | source hl h =>
    rw [verdict, opening, hl]
    dsimp only
    rw [h]
  | hole ha ho h =>
    obtain ⟨x₁, d₂, hopen, hasked⟩ := ha
    rw [verdict_of_opened hopen, askFrom_of_askHole 0 hasked ho h, Nat.zero_add]
  | evaluation ha hw h => rw [verdict_of_asked ha, closing, result_of_evaluation hw h]
  | blocks hf h =>
    obtain ⟨d₁, hasked, hresult⟩ := hf
    rw [verdict_of_asked hasked, closing, hresult]
    dsimp only
    rw [h]

/-- A check returns, or it fails at a step. -/
theorem returns_or_fails (c : Setting) (d : Disk) :
    (∃ r d', c.Returns d r d') ∨ ∃ step f, c.Fails d step f := by
  rcases run_check c.file c.mode .idle
      { program := c.program, args := [], dialect := c.dialect, quiet := true }
      { disk := d, script := c.script, surroundings := { levels := c.levels } } with
    ⟨r, _, w', -, h, -⟩ | ⟨step, f, _, _, -, h, -⟩
  · exact .inl ⟨r, w'.disk, h⟩
  · exact .inr ⟨step, f, h⟩

theorem verdict_eq_ok_iff {r : Report} : c.verdict d = .ok (r, d') ↔ c.Returns d r d' := by
  refine ⟨fun h => ?_, Returns.verdict_eq⟩
  rcases c.returns_or_fails d with ⟨r', e, h'⟩ | ⟨step, f, h'⟩
  · rw [h'.verdict_eq] at h
    cases h
    exact h'
  · rw [h'.verdict_eq] at h
    cases h

theorem verdict_eq_error_iff {step : Step} {f : Failure} :
    c.verdict d = .error (step, f) ↔ c.Fails d step f := by
  refine ⟨fun h => ?_, Fails.verdict_eq⟩
  rcases c.returns_or_fails d with ⟨r, e, h'⟩ | ⟨step', f', h'⟩
  · rw [h'.verdict_eq] at h
    cases h
  · rw [h'.verdict_eq] at h
    cases h
    exact h'

/-- What a check gives: a report or a failure. -/
def report (c : Setting) (d : Disk) : Except Failure Report :=
  ((c.verdict d).map Prod.fst).mapError Prod.snd

theorem report_eq_ok_iff {r : Report} : c.report d = .ok r ↔ ∃ d', c.Returns d r d' := by
  unfold report
  simp only [← verdict_eq_ok_iff]
  cases c.verdict d with
  | error e => simp [Except.map, Except.mapError]
  | ok v => simp [Except.map, Except.mapError, Prod.ext_iff]

theorem report_eq_error_iff {f : Failure} : c.report d = .error f ↔ ∃ step, c.Fails d step f := by
  unfold report
  simp only [← verdict_eq_error_iff]
  cases c.verdict d with
  | error e => simp [Except.map, Except.mapError, Prod.ext_iff]
  | ok v => simp [Except.map, Except.mapError]

/-- The commands that a check hands out. -/
def sent (c : Setting) (d : Disk) : List Text :=
  match c.verdict d with
  | .ok _ => c.plan d
  | .error (step, _) => step.commands (c.plan d)

/-- The stage that a check comes to. -/
def stage (c : Setting) (d : Disk) : Stage :=
  match c.verdict d with
  | .ok _ => .reported
  | .error (step, _) => step.stage c.mode

end Checking.Setting

namespace Checker

/-- **The verdict tells what a check does**: what it gives, which commands it hands out, and the stage
that it comes to. -/
theorem check_course (k : Checker) (file : Path) (mode : Mode) (w : World) :
    ∃ k' w', (check file mode).run k w = (((k.setting w file mode).report w.disk, k'), w') ∧
      w'.journal.commands = w.journal.commands ++ (k.setting w file mode).sent w.disk ∧
      k'.stage = (k.setting w file mode).stage w.disk := by
  rw [run_check]
  rcases Checking.run_check file mode k.stage (k.sessionFor mode) w with
    ⟨report, s', w', hrun, hr, hf⟩ | ⟨step, f, s', w', hrun, hfail, hf⟩
  · rw [hrun, setting, Checking.Setting.report, Checking.Setting.sent, Checking.Setting.stage,
      hr.verdict_eq]
    exact ⟨_, _, rfl, hf.commands, rfl⟩
  · rw [hrun, setting, Checking.Setting.report, Checking.Setting.sent, Checking.Setting.stage,
      hfail.verdict_eq]
    exact ⟨_, _, rfl, hf.commands, rfl⟩

end Checker

end AgdaFrontEnd
