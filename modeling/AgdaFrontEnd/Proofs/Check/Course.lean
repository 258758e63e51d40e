import AgdaFrontEnd.Proofs.Report.Block
import AgdaFrontEnd.Proofs.Session.Reply

/-!
# The course of a check

Every command of a check is answered by a process of its own, so what a check comes to depends on
its setting and the file system alone.  It is told here step by step.

* `Checking.Setting`: what stays the same while a check runs.
* `Setting.ask`, `Setting.askHoles`, `Setting.result`: what the steps come to.
* `Setting.plan`: the commands of a check that meets with no failure.
* `Setting.Fails`, `Setting.Returns`: how a step can fail, and what a check returns.
* `Checking.run_check`: a check returns, after the whole plan, or a step fails; then the stage and
  the commands are those of the step.
-/

namespace AgdaFrontEnd.Checking

/-! ## Single steps -/

section Bind

variable {a : Checking α} {t t' : Stage} {s s' : Session} {w w' : World}

theorem run_bind_ok {x : α} (h : a.run t s w = (((.ok x, t'), s'), w')) (f : α → Checking β) :
    (a >>= f).run t s w = (f x).run t' s' w' := by
  rw [ExceptT.run_bind]
  exact bind_apply₃ h _

theorem run_bind_error {e : Failure} (h : a.run t s w = (((.error e, t'), s'), w'))
    (f : α → Checking β) : (a >>= f).run t s w = (((.error e, t'), s'), w') := by
  rw [ExceptT.run_bind]
  exact bind_apply₃ h _

end Bind

theorem run_enter (t' t : Stage) (s : Session) (w : World) :
    (enter t').run t s w = (((.ok (), t'), s), w) := rfl

theorem run_talking (a : Talk α) (t : Stage) (s : Session) (w : World) :
    (talking a).run t s w = ((((a.run s w).1.1, t), (a.run s w).1.2), (a.run s w).2) := rfl

theorem run_inWorld (a : Act α) (t : Stage) (s : Session) (w : World) :
    (inWorld a).run t s w = ((((a.run w).1, t), s), (a.run w).2) := rfl

/-! ## Settings -/

/-- What stays the same while a check runs. -/
structure Setting where
  program : Text
  dialect : Dialect
  script : Script
  levels : Json.Levels
  file : Path
  mode : Mode

namespace Setting

/-- The setting of a check with a session in a world. -/
def of (s : Session) (w : World) (file : Path) (mode : Mode) : Setting :=
  ⟨s.program, s.dialect, w.script, w.surroundings.levels, file, mode⟩

theorem of_follows {s s' : Session} {w w' : World} {cs : List Text} {d : Disk}
    (h : Session.Follows s w cs d s' w') (file : Path) (mode : Mode) :
    of s' w' file mode = of s w file mode := by
  unfold of
  rw [h.program, h.dialect, h.script, h.surroundings]

/-- The command that a payload about the file is handed out as. -/
def command (c : Setting) (payload : Text) : Text :=
  Command.envelope c.file.toText payload c.mode.interactive

/-- What a payload comes to: its answer, and the file system after it. -/
def reply (c : Setting) (d : Disk) (payload : Text) : Except Failure Text × Disk :=
  c.script.reply c.program d (c.command payload)

/-- What a payload and the decoding of its answer come to. -/
def query (c : Setting) (payload : Text) (decode : Json.Levels → Dialect → Text → Except Failure α)
    (d : Disk) : Except Failure α × Disk :=
  ((c.reply d payload).1.bind (decode c.levels c.dialect), (c.reply d payload).2)

/-- What asking comes to: the extractor with the items of the answer, and the file system after
it. -/
def ask (c : Setting) (payload : Text) (hole : Option Int) (x : Extractor) :
    Disk → Except Failure Extractor × Disk :=
  c.query payload fun levels dialect output => extract levels dialect x output hole

/-- What loading comes to. -/
def load (c : Setting) : Disk → Except Failure Extractor × Disk :=
  c.ask (Command.load c.file.toText) none Extractor.empty

/-- What asking for the goal at a hole comes to. -/
def askHole (c : Setting) (h : Hole) : Extractor → Disk → Except Failure Extractor × Disk :=
  c.ask (Command.goal h.id h.hint) (some h.id)

/-- What asking for the goals at holes comes to. -/
def askHoles (c : Setting) : List Hole → Extractor → Disk → Except Failure Extractor × Disk
  | [], x, d => (.ok x, d)
  | h :: hs, x, d =>
    match c.askHole h x d with
    | (.ok x, d) => c.askHoles hs x d
    | (.error f, d) => (.error f, d)

/-- What the evaluation comes to. -/
def evaluation (c : Setting) : Disk → Except Failure Text × Disk :=
  c.query (Command.compute Command.entryPoint) resultOf

/-- What the evaluation comes to, if it is wanted. -/
def result (c : Setting) (d : Disk) : Except Failure (Option Text) × Disk :=
  if c.mode.evaluate then ((c.evaluation d).1.map some, (c.evaluation d).2) else (.ok none, d)

/-- The text of the file as the load has left it; it is empty if the file cannot be read. -/
def content (c : Setting) (d : Disk) : Text :=
  match ((c.load d).2).source c.file with
  | .ok t => t
  | .error _ => []

/-- The command that asks for the goal at a hole. -/
def goalCommand (c : Setting) (h : Hole) : Text := c.command (Command.goal h.id h.hint)

/-- The commands that follow those about the holes. -/
def lastCommands (c : Setting) : List Text :=
  if c.mode.evaluate then [c.command (Command.compute Command.entryPoint)] else []

/-- The commands of a check that meets with no failure. -/
def plan (c : Setting) (d : Disk) : List Text :=
  c.command (Command.load c.file.toText) ::
    ((Hole.scan (c.content d)).map c.goalCommand ++ c.lastCommands)

/-! ## Steps -/

/-- The file was loaded and read. -/
structure Opened (c : Setting) (d : Disk) (content : Text) (x : Extractor) (d' : Disk) : Prop where
  load : c.load d = (.ok x, d')
  source : d'.source c.file = .ok content

/-- The file was loaded and read, and its first `n` holes were asked for. -/
def Asked (c : Setting) (d : Disk) (n : Nat) (content : Text) (x : Extractor) (d' : Disk) : Prop :=
  ∃ x₁ d₁, c.Opened d content x₁ d₁ ∧ c.askHoles ((Hole.scan content).take n) x₁ d₁ = (.ok x, d')

/-- All that was wanted has been asked for. -/
def Finished (c : Setting) (d : Disk) (content : Text) (x : Extractor) (result : Option Text)
    (d' : Disk) : Prop :=
  ∃ d₁, c.Asked d (Hole.scan content).length content x d₁ ∧ c.result d₁ = (.ok result, d')

/-- The check returns a report. -/
def Returns (c : Setting) (d : Disk) (r : Report) (d' : Disk) : Prop :=
  ∃ content x, c.Finished d content x r.result d' ∧
    (blocks c.file content x.items).outcomeOn d' = .ok r.blocks ∧
    r.failed = x.items.any isDiagnostic

/-- The steps of a check. -/
inductive Step where
  /-- Loading, with the decoding of the answer. -/
  | load
  /-- Reading the file. -/
  | source
  /-- Asking for the goal at the `k`-th hole, with the decoding of the answer. -/
  | hole (k : Nat)
  /-- Evaluating, with the decoding of the answer. -/
  | evaluation
  /-- Rendering the items. -/
  | blocks
  deriving DecidableEq, Repr

/-- The stage that is reached before a step. -/
def Step.stage (mode : Mode) : Step → Stage
  | .load => .idle
  | .source => .loaded
  | .hole _ => .loaded
  | .evaluation => .queried
  | .blocks => if mode.evaluate then .evaluated else .queried

/-- The commands up to a step, and those of the step itself. -/
def Step.commands (plan : List Text) : Step → List Text
  | .load => plan.take 1
  | .source => plan.take 1
  | .hole k => plan.take (k + 2)
  | .evaluation => plan
  | .blocks => plan

/-- All before a step has gone well, and the step fails. -/
inductive Fails (c : Setting) (d : Disk) : Step → Failure → Prop where
  | load {f : Failure} {d' : Disk} (h : c.load d = (.error f, d')) : Fails c d .load f
  | source {f : Failure} {x : Extractor} {d' : Disk} (hl : c.load d = (.ok x, d'))
      (h : d'.source c.file = .error f) : Fails c d .source f
  | hole {k : Nat} {f : Failure} {content : Text} {x : Extractor} {d₁ d' : Disk} {o : Hole}
      (ha : c.Asked d k content x d₁) (ho : (Hole.scan content)[k]? = some o)
      (h : c.askHole o x d₁ = (.error f, d')) : Fails c d (.hole k) f
  | evaluation {f : Failure} {content : Text} {x : Extractor} {d₁ d' : Disk}
      (ha : c.Asked d (Hole.scan content).length content x d₁) (hw : c.mode.evaluate = true)
      (h : c.evaluation d₁ = (.error f, d')) : Fails c d .evaluation f
  | blocks {f : Failure} {content : Text} {x : Extractor} {result : Option Text} {d' : Disk}
      (hf : c.Finished d content x result d')
      (h : (Checking.blocks c.file content x.items).outcomeOn d' = .error f) : Fails c d .blocks f

theorem content_of_opened {c : Setting} {d d' : Disk} {content : Text} {x : Extractor}
    (h : c.Opened d content x d') : c.content d = content := by
  rw [Setting.content, h.load]
  dsimp only
  rw [h.source]

theorem plan_of_opened {c : Setting} {d d' : Disk} {content : Text} {x : Extractor}
    (h : c.Opened d content x d') : c.plan d = c.command (Command.load c.file.toText) ::
      ((Hole.scan content).map c.goalCommand ++ c.lastCommands) := by
  rw [plan, content_of_opened h]

/-- The commands up to the one about a hole. -/
theorem commands_hole {c : Setting} {d d' : Disk} {content : Text} {x : Extractor} {k : Nat}
    (h : c.Opened d content x d') (hk : k < (Hole.scan content).length) :
    Step.commands (c.plan d) (.hole k) = c.command (Command.load c.file.toText) ::
      ((Hole.scan content).take (k + 1)).map c.goalCommand := by
  have hle : k + 1 ≤ ((Hole.scan content).map c.goalCommand).length := by
    rw [List.length_map]
    omega
  rw [plan_of_opened h, Step.commands, List.take_succ_cons, List.take_append_of_le_length hle,
    List.map_take]

end Setting

/-! ## Runs -/

section Run

variable (file : Path) (mode : Mode) (t : Stage) (s : Session) (w : World)

/-- A payload is handed out, and its answer is decoded in the dialect of the session. -/
theorem run_query (payload : Text) (decode : Json.Levels → Dialect → Text → Except Failure α) :
    ∃ r s' w', (query file mode payload decode).run t s w = (((r, t), s'), w') ∧
      (Setting.of s w file mode).query payload decode w.disk = (r, w'.disk) ∧
      Session.Follows s w [(Setting.of s w file mode).command payload] w'.disk s' w' := by
  obtain ⟨s', w', hrun, hf⟩ := Session.run_send
    (Command.envelope file.toText payload mode.interactive) s w
  have hdisk := hf.disk
  rw [← hdisk] at hf
  refine ⟨_, s', w', ?_, by rw [hdisk]; rfl, hf⟩
  have hsend : (talking (Session.sendPayload file.toText payload mode.interactive)).run t s w =
      (((((Setting.of s w file mode).reply w.disk payload).1, t), s'), w') := by
    rw [run_talking, Session.sendPayload, hrun]
    rfl
  unfold query
  cases hr : ((Setting.of s w file mode).reply w.disk payload).1 with
  | error f =>
    rw [run_bind_error (hr ▸ hsend)]
    rfl
  | ok output =>
    have hd : dialect.run t s' w' = (((.ok (Setting.of s w file mode).dialect, t), s'), w') := by
      show (((Except.ok s'.dialect, t), s'), w') = _
      rw [hf.dialect]
      rfl
    have hl : levels.run t s' w' = (((.ok (Setting.of s w file mode).levels, t), s'), w') := by
      show (((Except.ok w'.surroundings.levels, t), s'), w') = _
      rw [hf.surroundings]
      rfl
    rw [run_bind_ok (hr ▸ hsend), run_bind_ok hl, run_bind_ok hd]
    dsimp only [Except.bind]
    cases decode (Setting.of s w file mode).levels (Setting.of s w file mode).dialect output <;> rfl

theorem run_ask (payload : Text) (hole : Option Int) (x : Extractor) :
    ∃ r s' w', (ask file mode payload hole x).run t s w = (((r, t), s'), w') ∧
      (Setting.of s w file mode).ask payload hole x w.disk = (r, w'.disk) ∧
      Session.Follows s w [(Setting.of s w file mode).command payload] w'.disk s' w' :=
  run_query file mode t s w payload fun levels dialect output => extract levels dialect x output hole

/-- The file is read, or fails to be. -/
theorem run_source :
    (∃ content w', (source file).run t s w = (((.ok content, t), s), w') ∧
      w.disk.source file = .ok content ∧ Session.Follows s w [] w.disk s w') ∨
    (∃ f w', (source file).run t s w = (((.error f, t), s), w') ∧
      w.disk.source file = .error f ∧ Session.Follows s w [] w.disk s w') := by
  obtain ⟨notes, hn, hrun⟩ := Act.run_readSource file w
  have hin := run_inWorld (Act.readSource file) t s w
  rw [hrun] at hin
  unfold source
  cases hs : w.disk.source file with
  | error f =>
    rw [hs] at hin
    exact .inr ⟨f, _, run_bind_error hin _, rfl, Session.follows_notes s w hn⟩
  | ok content =>
    rw [hs] at hin
    refine .inl ⟨content, { w with
      journal := w.journal ++ (notes ++ [.counted file.toText (Hole.scan content).length]) },
      ?_, rfl, Session.follows_notes s w fun e he => ?_⟩
    · rw [run_bind_ok hin, ← List.append_assoc]
      rfl
    · rcases List.mem_append.1 he with he | he
      · exact hn e he
      · rw [List.mem_singleton.1 he]
        trivial

/-- All holes are asked for, or all up to one that fails. -/
theorem run_askHoles : ∀ (hs : List Hole) (x : Extractor) (s : Session) (w : World),
    (∃ x' s' w', (askHoles file mode hs x).run t s w = (((.ok x', t), s'), w') ∧
      (Setting.of s w file mode).askHoles hs x w.disk = (.ok x', w'.disk) ∧
      Session.Follows s w (hs.map (Setting.of s w file mode).goalCommand) w'.disk s' w') ∨
    (∃ f k o x' d s' w', (askHoles file mode hs x).run t s w = (((.error f, t), s'), w') ∧
      hs[k]? = some o ∧
      (Setting.of s w file mode).askHoles (hs.take k) x w.disk = (.ok x', d) ∧
      (Setting.of s w file mode).askHole o x' d = (.error f, w'.disk) ∧
      Session.Follows s w ((hs.take (k + 1)).map (Setting.of s w file mode).goalCommand) w'.disk
        s' w')
  | [], x, s, w => .inl ⟨x, s, w, rfl, rfl, .refl s w⟩
  | h :: hs, x, s, w => by
    obtain ⟨r, s', w', hrun, hask, hf⟩ := run_ask file mode t s w (Command.goal h.id h.hint) (some h.id) x
    have hc := Setting.of_follows hf file mode
    generalize Setting.of s w file mode = c at *
    have hask' : c.askHole h x w.disk = (r, w'.disk) := hask
    cases r with
    | error f =>
      exact .inr ⟨f, 0, h, x, w.disk, s', w', run_bind_error hrun _, rfl, rfl, hask', hf⟩
    | ok y =>
      have hstep : ∀ hs', c.askHoles (h :: hs') x w.disk = c.askHoles hs' y w'.disk := by
        intro hs'
        rw [Setting.askHoles, hask']
      have hrest := run_askHoles hs y s' w'
      rw [hc] at hrest
      rcases hrest with ⟨x', s'', w'', hrun', hx, hf'⟩ |
        ⟨f, k, o, x', d', s'', w'', hrun', hk, hx, ho, hf'⟩
      · refine .inl ⟨x', s'', w'', ?_, (hstep hs).trans hx, hf.trans hf'⟩
        exact (run_bind_ok hrun _).trans hrun'
      · refine .inr ⟨f, k + 1, o, x', d', s'', w'', ?_, hk, (hstep _).trans hx, ho, hf.trans hf'⟩
        exact (run_bind_ok hrun _).trans hrun'

/-- The evaluation is made, or fails, or is not wanted. -/
theorem run_result :
    (∃ r s' w', (result file mode).run t s w =
        (((.ok r, if mode.evaluate then .evaluated else t), s'), w') ∧
      (Setting.of s w file mode).result w.disk = (.ok r, w'.disk) ∧
      Session.Follows s w (Setting.of s w file mode).lastCommands w'.disk s' w') ∨
    (∃ f s' w', (result file mode).run t s w = (((.error f, t), s'), w') ∧
      mode.evaluate = true ∧ (Setting.of s w file mode).evaluation w.disk = (.error f, w'.disk) ∧
      Session.Follows s w (Setting.of s w file mode).lastCommands w'.disk s' w') := by
  have hmode : (Setting.of s w file mode).mode = mode := rfl
  obtain ⟨r, s', w', hrun, he, hf⟩ :=
    run_query file mode t s w (Command.compute Command.entryPoint) resultOf
  generalize Setting.of s w file mode = c at *
  have he' : c.evaluation w.disk = (r, w'.disk) := he
  unfold result Setting.result Setting.lastCommands
  rw [hmode]
  cases mode.evaluate with
  | false => exact .inl ⟨none, s, w, rfl, rfl, .refl s w⟩
  | true =>
    cases r with
    | error f => exact .inr ⟨f, s', w', run_bind_error hrun _, rfl, he', hf⟩
    | ok r => exact .inl ⟨some r, s', w', run_bind_ok hrun _, by rw [he']; rfl, hf⟩

/-- The items are rendered, or one of them fails. -/
theorem run_report (content : Text) (x : Extractor) (r : Option Text) :
    (∃ bs w', (report file content x r).run t s w =
        (((.ok ⟨bs, x.items.any isDiagnostic, r⟩, .reported), s), w') ∧
      (blocks file content x.items).outcomeOn w.disk = .ok bs ∧
      Session.Follows s w [] w.disk s w') ∨
    (∃ f w', (report file content x r).run t s w = (((.error f, t), s), w') ∧
      (blocks file content x.items).outcomeOn w.disk = .error f ∧
      Session.Follows s w [] w.disk s w') := by
  obtain ⟨notes, hn, hrun⟩ := (onlyReads_blocks file content x.items).reads.run_eq w
  have hf := Session.follows_notes s w hn
  have hin := run_inWorld (blocks file content x.items) t s w
  rw [hrun] at hin
  unfold report
  cases hb : (blocks file content x.items).outcomeOn w.disk with
  | error f =>
    rw [hb] at hin
    exact .inr ⟨f, { w with journal := w.journal ++ notes }, run_bind_error hin _, rfl, hf⟩
  | ok bs =>
    rw [hb] at hin
    refine .inl ⟨bs, { w with journal := w.journal ++ notes }, ?_, rfl, hf⟩
    rw [run_bind_ok hin]
    rfl

/-- The end of a check: the evaluation fails, or rendering fails after it, or a report is given. -/
theorem run_close (content : Text) (x : Extractor) :
    (∃ r s' w', (result file mode >>= report file content x).run t s w =
        (((.ok r, .reported), s'), w') ∧
      (Setting.of s w file mode).result w.disk = (.ok r.result, w'.disk) ∧
      (blocks file content x.items).outcomeOn w'.disk = .ok r.blocks ∧
      r.failed = x.items.any isDiagnostic ∧
      Session.Follows s w (Setting.of s w file mode).lastCommands w'.disk s' w') ∨
    (∃ f s' w', (result file mode >>= report file content x).run t s w = (((.error f, t), s'), w') ∧
      mode.evaluate = true ∧ (Setting.of s w file mode).evaluation w.disk = (.error f, w'.disk) ∧
      Session.Follows s w (Setting.of s w file mode).lastCommands w'.disk s' w') ∨
    (∃ f r s' w', (result file mode >>= report file content x).run t s w =
        (((.error f, if mode.evaluate then .evaluated else t), s'), w') ∧
      (Setting.of s w file mode).result w.disk = (.ok r, w'.disk) ∧
      (blocks file content x.items).outcomeOn w'.disk = .error f ∧
      Session.Follows s w (Setting.of s w file mode).lastCommands w'.disk s' w') := by
  rcases run_result file mode t s w with ⟨r, s', w', hrun, hr, hf⟩ | ⟨f, s', w', hrun, hm, he, hf⟩
  · rw [run_bind_ok hrun]
    rcases run_report file (if mode.evaluate then .evaluated else t) s' w' content x r with
      ⟨bs, w'', hrun', hb, hf'⟩ | ⟨f, w'', hrun', hb, hf'⟩
    · have hd := hf'.disk
      rw [← hd] at hr hb hf'
      exact .inl ⟨_, s', w'', hrun', hr, hb, rfl, by simpa using hf.trans hf'⟩
    · have hd := hf'.disk
      rw [← hd] at hr hb hf'
      exact .inr (.inr ⟨f, r, s', w'', hrun', hr, hb, by simpa using hf.trans hf'⟩)
  · exact .inr (.inl ⟨f, s', w', run_bind_error hrun _, hm, he, hf⟩)

/-- **The course of a check.**  It returns, after all commands of its plan; or a step fails, and
then the stage and the commands are those of the step. -/
theorem run_check :
    (∃ r s' w', (check file mode).run t s w = (((.ok r, .reported), s'), w') ∧
      (Setting.of s w file mode).Returns w.disk r w'.disk ∧
      Session.Follows s w ((Setting.of s w file mode).plan w.disk) w'.disk s' w') ∨
    (∃ step f s' w', (check file mode).run t s w =
        (((.error f, Setting.Step.stage mode step), s'), w') ∧
      (Setting.of s w file mode).Fails w.disk step f ∧
      Session.Follows s w (step.commands ((Setting.of s w file mode).plan w.disk)) w'.disk s' w') := by
  obtain ⟨r, s₁, w₁, hrun₁, hl, hf₁⟩ :=
    run_ask file mode .idle s w (Command.load file.toText) none Extractor.empty
  have hc₁ := Setting.of_follows hf₁ file mode
  have hfile : (Setting.of s w file mode).file = file := rfl
  have hmode : (Setting.of s w file mode).mode = mode := rfl
  generalize Setting.of s w file mode = c at *
  subst hfile hmode
  have hload : c.load w.disk = (r, w₁.disk) := hl
  have hcheck : (check c.file c.mode).run t s w =
      (ask c.file c.mode (Command.load c.file.toText) none Extractor.empty >>= fun x => do
        enter .loaded
        let content ← source c.file
        let x ← askHoles c.file c.mode (Hole.scan content) x
        enter .queried
        result c.file c.mode >>= report c.file content x).run .idle s w := rfl
  rw [hcheck]
  cases r with
  | error f => exact .inr ⟨.load, f, s₁, w₁, run_bind_error hrun₁ _, .load hload, hf₁⟩
  | ok x =>
    rw [run_bind_ok hrun₁, run_bind_ok (run_enter .loaded _ _ _)]
    rcases run_source c.file .loaded s₁ w₁ with
      ⟨content, w₂, hrun₂, hsource, hf₂⟩ | ⟨f, w₂, hrun₂, hsource, hf₂⟩
    · have hopen : c.Opened w.disk content x w₂.disk := ⟨hf₂.disk ▸ hload, hf₂.disk ▸ hsource⟩
      have hc₂ := (Setting.of_follows hf₂ c.file c.mode).trans hc₁
      rw [run_bind_ok hrun₂]
      have hasked := run_askHoles c.file c.mode .loaded (Hole.scan content) x s₁ w₂
      rw [hc₂] at hasked
      rcases hasked with ⟨x', s₃, w₃, hrun₃, hx, hf₃⟩ | ⟨f, k, o, x', d, s₃, w₃, hrun₃, hk, hx, ho, hf₃⟩
      · have hall : c.Asked w.disk (Hole.scan content).length content x' w₃.disk :=
          ⟨x, w₂.disk, hopen, by rw [List.take_length]; exact hx⟩
        have hf := (hf₁.trans hf₂).trans hf₃
        have hc₃ := (Setting.of_follows hf₃ c.file c.mode).trans hc₂
        rw [run_bind_ok hrun₃, run_bind_ok (run_enter .queried _ _ _)]
        have hclose := run_close c.file c.mode .queried s₃ w₃ content x'
        rw [hc₃] at hclose
        rw [Setting.plan_of_opened hopen]
        rcases hclose with ⟨r, s₄, w₄, hrun₄, hr, hb, hfail, hf₄⟩ | ⟨f, s₄, w₄, hrun₄, hm, he, hf₄⟩ |
          ⟨f, r, s₄, w₄, hrun₄, hr, hb, hf₄⟩
        · exact .inl ⟨r, s₄, w₄, hrun₄, ⟨content, x', ⟨w₃.disk, hall, hr⟩, hb, hfail⟩,
            by simpa using hf.trans hf₄⟩
        · exact .inr ⟨.evaluation, f, s₄, w₄, hrun₄, .evaluation hall hm he,
            by simpa [Setting.Step.commands] using hf.trans hf₄⟩
        · exact .inr ⟨.blocks, f, s₄, w₄, hrun₄, .blocks ⟨w₃.disk, hall, hr⟩ hb,
            by simpa [Setting.Step.commands] using hf.trans hf₄⟩
      · refine .inr ⟨.hole k, f, s₃, w₃, run_bind_error hrun₃ _,
          .hole ⟨x, w₂.disk, hopen, hx⟩ hk ho, ?_⟩
        have hlt : k < (Hole.scan content).length := (List.getElem?_eq_some_iff.1 hk).1
        rw [Setting.commands_hole hopen hlt]
        exact (hf₁.trans hf₂).trans hf₃
    · refine .inr ⟨.source, f, s₁, w₂, run_bind_error hrun₂ _, .source hload hsource, ?_⟩
      exact hf₂.disk ▸ hf₁.trans hf₂

end Run

end AgdaFrontEnd.Checking
