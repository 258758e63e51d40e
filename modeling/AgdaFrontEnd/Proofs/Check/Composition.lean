import AgdaFrontEnd.Proofs.Check.Protocol
import AgdaFrontEnd.Proofs.Command
import AgdaFrontEnd.Proofs.Report.Findings
import AgdaFrontEnd.Proofs.Text.Margins

/-!
# What a report is composed of

A report that a check returns has a block for every goal, and for every message of an error where it
came for the first time, of the answers to loading and to the questions about the holes.  The answer
to the evaluation decides on the result of the report and on nothing else.

* `Setting.findings`: what the answers to questions tell.
* `Setting.Asked.holds`: after the questions, the extractor holds what the answers tell.
* `Setting.Returns.alike`: the answer to the evaluation decides on nothing but the result.
* `Checker.report_composition`: the composition of a report.
-/

namespace AgdaFrontEnd

namespace Checking.Setting

/-! ## Answers -/

/-- The answer to a payload, if there is one. -/
def output (c : Setting) (payload : Text) : Text :=
  Utf8.decodeLossy (c.script.ruleFor (c.command payload)).stdout

/-- The question about a hole: the payload, and the hole that a goal is the one of. -/
def question (h : Hole) : Text × Option Int := (Command.goal h.id h.hint, some h.id)

/-- The questions of a check: loading, and one about each hole of the text. -/
def questions (c : Setting) (content : Text) : List (Text × Option Int) :=
  (Command.load c.file.toText, none) :: (Hole.scan content).map question

/-- What the answers to questions tell, in order. -/
def findings (c : Setting) : List (Text × Option Int) → Except DecodeFault (List Finding)
  | [] => .ok []
  | (payload, hole) :: qs => do
    let fs ← Finding.decode c.levels c.dialect hole (c.output payload)
    let gs ← c.findings qs
    return fs ++ gs

theorem findings_cons {c : Setting} {payload : Text} {hole : Option Int}
    {qs : List (Text × Option Int)} {fs gs : List Finding}
    (hf : Finding.decode c.levels c.dialect hole (c.output payload) = .ok fs) (hg : c.findings qs = .ok gs) :
    c.findings ((payload, hole) :: qs) = .ok (fs ++ gs) := by
  rw [findings, hf, hg]
  rfl

theorem reply_output {c : Setting} {d : Disk} {payload t : Text}
    (h : (c.reply d payload).1 = .ok t) : t = c.output payload := by
  have hanswer : (c.script.ruleFor (c.command payload)).answer = .ok t := by
    unfold reply Script.reply Script.exchange at h
    split at h
    · cases h
    · split at h
      · cases h
      · split at h
        · cases h
        · exact h
  unfold Rule.answer at hanswer
  split at hanswer
  · exact (Except.ok.inj hanswer).symm
  · cases hanswer

/-- An answer that was asked for adds what it tells. -/
theorem holds_ask {c : Setting} {payload : Text} {hole : Option Int} {x x' : Extractor}
    {d d' : Disk} {fs : List Finding} (h : x.Holds fs)
    (ha : c.ask payload hole x d = (.ok x', d')) :
    ∃ gs, Finding.decode c.levels c.dialect hole (c.output payload) = .ok gs ∧ x'.Holds (fs ++ gs) := by
  have he : (c.reply d payload).1.bind (fun t => extract c.levels c.dialect x t hole) = .ok x' :=
    (Prod.mk.inj ha).1
  cases hr : (c.reply d payload).1 with
  | error f =>
    rw [hr] at he
    cases he
  | ok t =>
    rw [hr] at he
    exact holds_extract h (reply_output hr ▸ he)

/-- Answers to the questions about holes add what they tell. -/
theorem holds_askHoles {c : Setting} : ∀ {hs : List Hole} {x x' : Extractor} {d d' : Disk}
    {fs : List Finding}, x.Holds fs → c.askHoles hs x d = (.ok x', d') →
      ∃ gs, c.findings (hs.map question) = .ok gs ∧ x'.Holds (fs ++ gs)
  | [], x, x', d, d', fs, h, ha => by
    obtain rfl : x = x' := Except.ok.inj (Prod.mk.inj ha).1
    exact ⟨[], rfl, by rwa [List.append_nil]⟩
  | o :: hs, x, x', d, d', fs, h, ha => by
    rw [askHoles] at ha
    split at ha
    · rename_i y d₁ ho
      obtain ⟨gs, hg, hy⟩ := holds_ask h ho
      obtain ⟨gs', hg', hx⟩ := holds_askHoles hy ha
      exact ⟨gs ++ gs', findings_cons hg hg', by rwa [← List.append_assoc]⟩
    · cases ha

/-- **After the questions, the extractor holds what the answers tell.** -/
theorem Asked.holds {c : Setting} {d d' : Disk} {content : Text} {x : Extractor}
    (h : c.Asked d (Hole.scan content).length content x d') :
    ∃ fs, c.findings (c.questions content) = .ok fs ∧ x.Holds fs := by
  obtain ⟨x₁, d₁, hopen, ha⟩ := h
  rw [List.take_length] at ha
  obtain ⟨fs, hf, hx⟩ := holds_ask Extractor.holds_empty hopen.load
  obtain ⟨gs, hg, hx'⟩ := holds_askHoles hx ha
  exact ⟨fs ++ gs, findings_cons hf hg, hx'⟩

/-! ## Commands apart -/

theorem command_injective {c : Setting} {p q : Text} (h : c.command p = c.command q) : p = q := by
  unfold command Command.envelope at h
  exact List.append_cancel_left (List.append_cancel_right h)

theorem load_ne_compute (file expr : Text) : Command.load file ≠ Command.compute expr := by
  have hletter : (Command.Query.load file).kind.letter ≠ (Command.Query.compute expr).kind.letter :=
    show 'l' ≠ 'c' by decide
  exact Command.payload_ne hletter

theorem goal_ne_compute (id : Int) (hint expr : Text) :
    Command.goal id hint ≠ Command.compute expr := by
  have hletter : (Command.Query.goal id hint).kind.letter ≠ (Command.Query.compute expr).kind.letter :=
    show 'g' ≠ 'c' by decide
  exact Command.payload_ne hletter

/-! ## Two scripts -/

/-- The setting with another script. -/
def withScript (c : Setting) (script : Script) : Setting := { c with script }

section Alike

variable {c : Setting} {script : Script} {cs : List Text}
  (h : c.script.AlikeBut cs (c.command (Command.compute Command.entryPoint)) script)

include h

theorem ask_alike {payload : Text} (hp : payload ≠ Command.compute Command.entryPoint)
    (hm : c.command payload ∈ cs) (hole : Option Int) (x : Extractor) (d : Disk) :
    c.ask payload hole x d = (c.withScript script).ask payload hole x d := by
  have hreply : c.reply d payload = (c.withScript script).reply d payload :=
    h.reply_eq hm c.program d fun heq => hp (command_injective heq)
  unfold ask query
  rw [hreply]
  rfl

theorem askHoles_alike : ∀ (hs : List Hole) (_ : ∀ o ∈ hs, c.goalCommand o ∈ cs) (x : Extractor)
    (d : Disk), c.askHoles hs x d = (c.withScript script).askHoles hs x d
  | [], _, _, _ => rfl
  | o :: hs, hm, x, d => by
    have ho : c.askHole o x d = (c.withScript script).askHole o x d :=
      ask_alike h (goal_ne_compute _ _ _) (hm o (.head _)) (some o.id) x d
    rw [askHoles, askHoles, ho]
    rcases (c.withScript script).askHole o x d with ⟨_ | y, d'⟩
    · rfl
    · exact askHoles_alike hs (fun o' ho' => hm o' (.tail _ ho')) y d'

theorem result_alike_disk (hm : ∀ t ∈ c.lastCommands, t ∈ cs) (d : Disk) :
    (c.result d).2 = ((c.withScript script).result d).2 := by
  have hmode : (c.withScript script).mode = c.mode := rfl
  unfold lastCommands at hm
  unfold result
  rw [hmode]
  split
  · rename_i hw
    rw [if_pos hw] at hm
    exact h.reply_disk (hm _ (.head _)) c.program d
  · rfl

end Alike

/-- **The answer to the evaluation decides on nothing but the result.** -/
theorem Returns.alike {c : Setting} {script : Script} {d d₁ d₂ : Disk} {r₁ r₂ : Report}
    (h : c.script.AlikeBut (c.plan d) (c.command (Command.compute Command.entryPoint)) script)
    (h₁ : c.Returns d r₁ d₁) (h₂ : (c.withScript script).Returns d r₂ d₂) :
    r₂.blocks = r₁.blocks ∧ r₂.failed = r₁.failed := by
  obtain ⟨t, x, ⟨e, ⟨y, e', hopen, hasked⟩, hr⟩, hb, hf⟩ := h₁
  obtain ⟨t', x', ⟨u, ⟨y', u', hopen', hasked'⟩, hr'⟩, hb', hf'⟩ := h₂
  rw [plan_of_opened hopen] at h
  -- the load, and the text it leaves
  have hload : c.load d = (c.withScript script).load d :=
    ask_alike h (load_ne_compute _ _) (.head _) none Extractor.empty d
  rw [hopen.load, hopen'.load] at hload
  obtain ⟨hy, hd⟩ := Prod.mk.inj hload
  obtain rfl : y = y' := Except.ok.inj hy
  subst hd
  obtain rfl : t = t' := Except.ok.inj (hopen.source.symm.trans hopen'.source)
  -- the questions about the holes
  have hgoals : ∀ o ∈ (Hole.scan t).take (Hole.scan t).length, c.goalCommand o ∈
      c.command (Command.load c.file.toText) ::
        ((Hole.scan t).map c.goalCommand ++ c.lastCommands) := by
    intro o ho
    exact .tail _ (List.mem_append.2 (.inl (List.mem_map.2 ⟨o, List.mem_of_mem_take ho, rfl⟩)))
  rw [askHoles_alike h _ hgoals, hasked'] at hasked
  obtain ⟨hx, hu⟩ := Prod.mk.inj hasked
  obtain rfl : x' = x := Except.ok.inj hx
  subst hu
  -- the file system that the evaluation leaves
  have hdisk := result_alike_disk h
    (fun t ht => .tail _ (List.mem_append.2 (.inr ht))) u
  rw [hr, hr'] at hdisk
  dsimp only at hdisk
  subst hdisk
  exact ⟨Except.ok.inj (hb'.symm.trans hb), hf'.trans hf.symm⟩

/-- A check gives a result if it evaluates. -/
theorem result_eq_none {c : Setting} {d d' : Disk} {r : Option Text} (h : c.result d = (.ok r, d')) :
    r = none ↔ c.mode.evaluate = false := by
  unfold result at h
  split at h
  · rename_i hw
    cases he : (c.evaluation d).1 with
    | error f =>
      rw [he] at h
      cases h
    | ok t =>
      rw [he] at h
      cases h
      simp [hw]
  · rename_i hw
    cases h
    simpa using hw

end Checking.Setting

/-! ## Texts of reports -/

/-- The text of a report is that of its blocks; a report without blocks says that all is well. -/
theorem Report.text_of_styled {r : Report} (hb : ∀ b ∈ r.blocks, Text.Styled b)
    (hf : r.blocks = [] → r.failed = false) :
    (r.text = checkedWord ↔ r.blocks = []) ∧
      (r.blocks ≠ [] → r.text = Text.strip (Text.unlines r.blocks)) := by
  cases hbs : r.blocks with
  | nil =>
    have htext : r.text = checkedWord := by
      unfold text
      rw [hf hbs, hbs]
      rfl
    simp [htext]
  | cons b bs =>
    have hstyled : Text.Styled (Text.unlines (b :: bs)) := by
      have hb' := hb b (by rw [hbs]; exact .head _)
      cases bs with
      | nil => simpa [Text.unlines] using hb'
      | cons b' bs =>
        have h := Text.styled_append hb' ('\n' :: Text.unlines (b' :: bs))
        simpa [Text.unlines, List.intercalate, List.intersperse] using h
    obtain ⟨t, ht⟩ := hstyled
    obtain ⟨t', ht'⟩ := Text.strip_cons (c := '\x1b') (by decide) t
    have htext : r.text = Text.strip (Text.unlines (b :: bs)) := by
      unfold text
      rw [hbs, ht, ht']
      simp
    refine ⟨⟨fun h => ?_, fun h => by cases h⟩, fun _ => htext⟩
    rw [htext, ht, ht'] at h
    exact absurd (List.cons.inj h).1 (by decide)

/-- The text is the block of a finding of a check of `file`, which has this content. -/
def Finding.Renders (file : Path) (content : Text) (d : Disk) (f : Finding) (b : Text) : Prop :=
  ∃ i, f.item = .ok i ∧ (i.block .terminal file content).outcomeOn d = .ok b

theorem Finding.isDiagnostic_of_item {f : Finding} {i : Item} (h : f.item = .ok i) :
    Checking.isDiagnostic i = f.isMessage := by
  cases f with
  | goal g =>
    cases h
    rfl
  | message m =>
    obtain ⟨d, -, rfl⟩ := item_message_eq_ok_iff.1 h
    rfl

theorem Finding.any_isDiagnostic : ∀ {fs : List Finding} {is : List Item},
    List.Forall₂ (fun f i => item f = .ok i) fs is → is.any Checking.isDiagnostic = fs.any isMessage
  | _, _, .nil => rfl
  | _, _, .cons h hs => by
    rw [List.any_cons, List.any_cons, isDiagnostic_of_item h, any_isDiagnostic hs]

theorem Finding.forall₂_renders {file : Path} {content : Text} {d : Disk} :
    ∀ {fs : List Finding} {is : List Item} {bs : List Text},
      List.Forall₂ (fun f i => item f = .ok i) fs is →
      List.Forall₂ (fun i b => (i.block .terminal file content).outcomeOn d = .ok b) is bs →
      List.Forall₂ (Renders file content d) fs bs
  | _, _, _, .nil, .nil => .nil
  | _, _, _, .cons h hs, .cons h' hs' => .cons ⟨_, h, h'⟩ (forall₂_renders hs hs')

theorem Finding.any_isMessage {fs : List Finding} :
    fs.any isMessage = true ↔ ∃ m, message m ∈ fs := by
  rw [List.any_eq_true]
  constructor
  · rintro ⟨f, hf, hm⟩
    cases f with
    | goal g => cases hm
    | message m => exact ⟨m, hf⟩
  · rintro ⟨m, hm⟩
    exact ⟨_, hm, rfl⟩

/-! ## Composition -/

/-- What the text of a report must be, by its blocks, when its findings are `fs`. -/
theorem Checking.Setting.Returns.composition {c : Setting} {d d' : Disk} {r : Report}
    (h : c.Returns d r d') :
    ∃ fs, c.findings (c.questions (c.content d)) = .ok fs ∧
      List.Forall₂ (Finding.Renders c.file (c.content d) d') (Finding.firsts fs) r.blocks ∧
      (r.failed = true ↔ ∃ m, .message m ∈ fs) ∧ (r.text = checkedWord ↔ fs = []) ∧
      (fs ≠ [] → r.text = Text.strip (Text.unlines r.blocks)) := by
  obtain ⟨content, x, ⟨d₁, hasked, -⟩, hb, hfail⟩ := h
  obtain ⟨fs, hfs, hx⟩ := hasked.holds
  obtain ⟨x₁, d₂, hopen, -⟩ := hasked
  have hblocks := Checking.forall₂_block hb
  have hrenders := Finding.forall₂_renders hx.items hblocks
  have hfailed : r.failed = true ↔ ∃ m, .message m ∈ fs := by
    rw [hfail, Finding.any_isDiagnostic hx.items, Finding.any_isMessage]
    simp only [Finding.mem_firsts]
  have hnil : r.blocks = [] ↔ fs = [] := by
    rw [← Finding.firsts_eq_nil, ← List.length_eq_zero_iff, ← List.length_eq_zero_iff,
      hrenders.length_eq]
  have hstyled := Checking.styled_of_forall₂ hblocks
  have htext := Report.text_of_styled hstyled fun h0 => by
    have hfs0 := hnil.1 h0
    subst hfs0
    simpa using hfailed
  rw [content_of_opened hopen]
  exact ⟨fs, hfs, hrenders, hfailed, htext.1.trans hnil, fun h0 => htext.2 (mt hnil.1 h0)⟩

/-- **The composition of a report.** -/
theorem Checker.report_composition {k k' : Checker} {file : Path} {mode : Mode} {w w' : World}
    {r : Report} (h : (check file mode).run k w = ((.ok r, k'), w')) :
    (∃ fs, (k.setting w file mode).findings
        ((k.setting w file mode).questions ((k.setting w file mode).content w.disk)) = .ok fs ∧
      List.Forall₂ (Finding.Renders file ((k.setting w file mode).content w.disk) w'.disk)
        (Finding.firsts fs) r.blocks ∧
      (r.failed = true ↔ ∃ m, .message m ∈ fs) ∧ (r.text = checkedWord ↔ fs = []) ∧
      (fs ≠ [] → r.text = Text.strip (Text.unlines r.blocks))) ∧
    (r.result = none ↔ mode.evaluate = false) ∧
    (∀ script, w.script.AlikeBut ((k.setting w file mode).plan w.disk)
        ((k.setting w file mode).command (Command.compute Command.entryPoint)) script →
      ∀ k₂ w₂ r₂, (check file mode).run k { w with script } = ((.ok r₂, k₂), w₂) →
        r₂.blocks = r.blocks ∧ r₂.failed = r.failed ∧ r₂.text = r.text) := by
  have hr := returns_of_check h
  refine ⟨hr.composition, ?_, ?_⟩
  · obtain ⟨_, _, ⟨_, -, hresult⟩, -⟩ := hr
    exact Checking.Setting.result_eq_none hresult
  · intro script halike k₂ w₂ r₂ h₂
    obtain ⟨hblocks, hfailed⟩ := Checking.Setting.Returns.alike halike hr (returns_of_check h₂)
    refine ⟨hblocks, hfailed, ?_⟩
    unfold Report.text
    rw [hblocks, hfailed]

namespace Checker.Sample

/-- The file `/a`. -/
def file : Path := ⟨.root, [['a']]⟩

def mode : Mode := { evaluate := true, dialect := .text }

/-- An answer that shows an error and a goal. -/
def rule : Rule where
  stdout := Utf8.encode ("(agda2-info-action \"Error\" \"E\" nil)\n".toList ++
    "(agda2-info-action \"\" \"Goal: T\" nil)".toList)

/-- The file has one hole, and all answers are the same. -/
def world : World where
  disk := { entries := [([['a']], .file (Utf8.encode "{!!}".toList))] }
  script := { rules := [rule] }

/-- An answer that shows a value. -/
def value : Rule where
  pattern := "Cmd_c".toList
  stdout := Utf8.encode "(agda2-info-action \"*Normal Form*\" \"1\" nil)".toList

/-- The answer to the evaluation shows a value, and the others are as before. -/
def script : Script := { rules := [value, rule] }

theorem script_alike : world.script.AlikeBut ((Checker.setting {} world file mode).plan world.disk)
    ((Checker.setting {} world file mode).command (Command.compute Command.entryPoint)) script := by
  have hword : ∀ t ∈ (Checker.setting {} world file mode).plan world.disk,
      t ≠ (Checker.setting {} world file mode).command (Command.compute Command.entryPoint) →
        t.hasWord "Cmd_c".toList = false := by decide +kernel
  have hrule : ∀ t : Text, world.script.ruleFor t = rule := by
    intro t
    cases t <;> rfl
  have hscript : ∀ t : Text, script.ruleFor t =
      if t.hasWord "Cmd_c".toList then value else rule := by
    intro t
    unfold script Script.ruleFor
    rw [List.find?_cons]
    show ((match t.hasWord "Cmd_c".toList with
      | true => some value
      | false => [rule].find? fun r => t.hasWord r.pattern).getD {}) = _
    cases t.hasWord "Cmd_c".toList with
    | true => rfl
    | false => cases t <;> rfl
  refine ⟨fun t _ _ => ?_, fun t _ => ?_, fun t _ => ?_, fun t _ => ?_, fun t _ => ?_,
    fun t ht hne => ?_⟩
  · rw [Script.startFault?, Script.startFault?, hrule, hscript]
    split <;> rfl
  · rw [Script.inputFault?, Script.inputFault?, hrule, hscript]
    split <;> rfl
  · rw [hrule, hscript]
    split <;> rfl
  · rw [hrule, hscript]
    split <;> rfl
  · rw [hrule, hscript]
    split <;> rfl
  · rw [hrule, hscript, hword t ht hne]
    rfl

end Checker.Sample

section

open Checker.Sample

theorem Checker.report_composition_sample :
    ∃ r k' w', (check file mode).run {} world = ((.ok r, k'), w') ∧ r.blocks.length = 3 ∧
      r.text ≠ checkedWord ∧ r.result = some noOutput ∧
      ∃ r₂ k₂ w₂, (check file mode).run {} { world with script } = ((.ok r₂, k₂), w₂) ∧
        r₂.result = some ['1'] ∧ r₂.blocks = r.blocks := by
  have hrun : (((check file mode).run {} world).1.1.toOption.map fun r =>
      (r.blocks.length, r.failed, r.result)) = some (3, true, some noOutput) := by decide +kernel
  have hrun₂ : (((check file mode).run {} { world with script }).1.1.toOption.map (·.result)) =
      some (some ['1']) := by decide +kernel
  rcases h : (check file mode).run {} world with ⟨⟨_ | r, k'⟩, w'⟩
  · rw [h] at hrun
    cases hrun
  rcases h₂ : (check file mode).run {} { world with script } with ⟨⟨_ | r₂, k₂⟩, w₂⟩
  · rw [h₂] at hrun₂
    cases hrun₂
  rw [h] at hrun
  rw [h₂] at hrun₂
  obtain ⟨hlength, hfailed, hresult⟩ : r.blocks.length = 3 ∧ r.failed = true ∧
      r.result = some noOutput := by simpa [Except.toOption] using hrun
  obtain ⟨⟨fs, -, -, hmessage, htext, -⟩, -, halike⟩ := report_composition h
  refine ⟨r, k', w', rfl, hlength, fun hchecked => ?_, hresult, r₂, k₂, w₂, rfl, ?_, ?_⟩
  · obtain ⟨m, hm⟩ := hmessage.1 hfailed
    rw [htext.1 hchecked] at hm
    cases hm
  · simpa [Except.toOption] using hrun₂
  · exact (halike script script_alike k₂ w₂ r₂ h₂).1

end

end AgdaFrontEnd
