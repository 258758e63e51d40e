import AgdaFrontEnd.Proofs.Check.Verdict
import AgdaFrontEnd.Proofs.Report.Findings
import AgdaFrontEnd.Proofs.Response.Decoding
import AgdaFrontEnd.Proofs.Response.TextRoundTrip
import AgdaFrontEnd.Proofs.Utf8

/-!
# The dialects agree on errors

An answer in the JSON dialect tells the message of an error as a member of an object, and one in the
textual dialect as a quoted field.  Two checks of one file get the same messages from both, so they
hand out the same commands and come to the same end.

* `Dialect.TellsErrors`: the outputs that tell errors, in either dialect.
* `Dialect.TellsErrors.decode`: the messages are told as they are.
* `Setting.AnswersErrors`: the processes answer the commands of a check with errors.
* `Setting.verdict_agrees`: the verdict depends on the messages, not on the dialect.
* `Checker.dialects_agree`: two such checks agree.
-/

namespace AgdaFrontEnd

/-! ## Outputs that tell errors -/

/-- The title of a unit that shows an error. -/
def InfoAction.errorTitle : Text := "*Error*".toList

/-- The unit shows an error with the message. -/
def InfoAction.ShowsError (u : InfoAction) (message : Text) : Prop :=
  ∃ rest, u.fields = errorTitle :: message :: rest

/-- The output tells errors with these messages in the dialect, and nothing else.  Lines that tell
nothing may stand between them; no object is deeper than values are read. -/
def Dialect.TellsErrors (levels : Json.Levels) (messages : List Text) (output : Text) : Dialect → Prop
  | .json => ∃ ls : List ResponseLine, (∀ l ∈ ls, l.Valid levels ∧ l.nesting ≤ levels.count) ∧
      ls.filterMap ResponseLine.record? = messages.map .error ∧
      output = Text.unlines (ls.map ResponseLine.text)
  | .text => ∃ ls : List OutputLine, (∀ l ∈ ls, l.Valid) ∧
      List.Forall₂ InfoAction.ShowsError (ls.filterMap OutputLine.unit?) messages ∧
      output = Text.unlines (ls.map OutputLine.text)

namespace Dialect

/-- The members of an object that tells an error. -/
def errorMembers (message : Text) : Members :=
  [("kind".toList, .string "DisplayInfo".toList),
   ("info".toList, .object
     [("kind".toList, .string "Error".toList),
      ("error".toList, .object [("message".toList, .string message)])])]

theorem isResponse_errorMembers (message : Text) :
    (Record.error message).IsResponse (.object (errorMembers message)) := by
  refine ⟨⟨_, rfl, rfl⟩, _, ⟨_, rfl, rfl⟩, .error ?_ ⟨_, rfl, rfl⟩ ⟨_, rfl, rfl⟩⟩
  rintro ⟨_, ⟨⟩, h⟩
  cases h

/-- How a dialect tells errors with these messages, a line for each. -/
def tell (messages : List Text) : Dialect → Text
  | .json => Text.unlines (messages.map fun m => (Json.object (errorMembers m)).toText .oneLine)
  | .text => Text.unlines (messages.map fun m =>
      InfoAction.write ⟨InfoAction.plain, [InfoAction.errorTitle, m]⟩)

/-- Every list of messages can be told in either dialect. -/
theorem tellsErrors_tell (levels : Json.Levels) (dialect : Dialect) (messages : List Text) :
    dialect.TellsErrors levels messages (dialect.tell messages) := by
  cases dialect with
  | json =>
    refine ⟨messages.map fun m => .record (.error m) (errorMembers m) [] none [], ?_, ?_, ?_⟩
    · intro l hl
      obtain ⟨m, -, rfl⟩ := List.mem_map.1 hl
      have hdepth : (Json.object (errorMembers m)).nesting ≤ levels.count :=
        Nat.le_trans (by decide : 3 ≤ Json.fewestLevels) levels.fewest_le
      exact ⟨⟨isResponse_errorMembers m, by simp [errorMembers], nofun, nofun, nofun⟩, hdepth⟩
    · rw [List.filterMap_map]
      exact congrFun List.filterMap_eq_map' messages
    · rw [tell, List.map_map]
      refine congrArg Text.unlines (List.map_congr_left fun m _ => ?_)
      simp [ResponseLine.text, Text.lead]
  | text =>
    refine ⟨messages.map fun m => .unit ⟨InfoAction.plain, [InfoAction.errorTitle, m]⟩ [] none [],
      ?_, ?_, ?_⟩
    · intro l hl
      obtain ⟨m, -, rfl⟩ := List.mem_map.1 hl
      exact ⟨.inl rfl, nofun, nofun, nofun⟩
    · have hunits : (messages.map fun m => OutputLine.unit
          ⟨InfoAction.plain, [InfoAction.errorTitle, m]⟩ [] none []).filterMap OutputLine.unit? =
          messages.map fun m => ⟨InfoAction.plain, [InfoAction.errorTitle, m]⟩ := by
        rw [List.filterMap_map]
        exact congrFun List.filterMap_eq_map' messages
      rw [hunits, List.forall₂_map_left_iff]
      exact List.forall₂_same.2 fun m _ => ⟨[], rfl⟩
    · rw [tell, List.map_map]
      refine congrArg Text.unlines (List.map_congr_left fun m _ => ?_)
      simp [OutputLine.text, InfoAction.promptText]

end Dialect

namespace Finding

theorem filterMap_ofRecord? : ∀ messages : List Text,
    (messages.map Record.error).filterMap ofRecord? = messages.map message
  | [] => rfl
  | m :: ms => by rw [List.map_cons, List.map_cons, ← filterMap_ofRecord? ms]; rfl

theorem ofAction?_of_showsError {u : InfoAction} {m : Text} (h : u.ShowsError m) (hole : Option Int) :
    ofAction? hole u = some (message m) := by
  obtain ⟨rest, h⟩ := h
  have hword : Text.hasWord InfoAction.errorTitle Extractor.errorWord = true := by decide
  simp [ofAction?, InfoAction.title, InfoAction.body, h, hword]

theorem filterMap_ofAction? (hole : Option Int) : ∀ {us : List InfoAction} {messages : List Text},
    List.Forall₂ InfoAction.ShowsError us messages →
      us.filterMap (ofAction? hole) = messages.map message
  | _, _, .nil => rfl
  | _, _, .cons h hs => by
    rw [List.filterMap_cons_some (ofAction?_of_showsError h hole), filterMap_ofAction? hole hs,
      List.map_cons]

end Finding

/-- **The messages of errors are told as they are**, whatever characters they have. -/
theorem Dialect.TellsErrors.decode {levels : Json.Levels} {dialect : Dialect} {messages : List Text}
    {output : Text} (h : dialect.TellsErrors levels messages output) (hole : Option Int) :
    Finding.decode levels dialect hole output = .ok (messages.map .message) := by
  cases dialect with
  | json =>
    obtain ⟨ls, hv, hrecords, rfl⟩ := h
    have hdecode : Record.decode levels (Text.unlines (ls.map ResponseLine.text)) =
        .ok (messages.map .error) := by
      have hnone : ls.findSome? (ResponseLine.tooDeep? levels) = none :=
        List.findSome?_eq_none_iff.2 fun l hl => ResponseLine.tooDeep?_eq_none_iff.2 (hv l hl).2
      rw [← hrecords, ResponseLine.decode_map_text ls fun l hl => (hv l hl).1, hnone]
      rfl
    rw [Finding.decode, hdecode]
    exact congrArg Except.ok (Finding.filterMap_ofRecord? messages)
  | text =>
    obtain ⟨ls, hv, hunits, rfl⟩ := h
    have hparse : InfoAction.parse (Text.unlines (ls.map OutputLine.text)) =
        ls.filterMap OutputLine.unit? := by
      by_cases hne : ls.map OutputLine.text = []
      · rw [List.map_eq_nil_iff.1 hne]
        decide
      · have hlines : ∀ t ∈ ls.map OutputLine.text, '\n' ∉ t := by
          intro t ht
          obtain ⟨l, hl, rfl⟩ := List.mem_map.1 ht
          exact (hv l hl).not_mem_text
        rw [InfoAction.parse, Text.lines_unlines hne hlines, OutputLine.parseLines_map_text ls hv]
    rw [Finding.decode, hparse, Finding.filterMap_ofAction? hole hunits]

namespace Checking.Setting

/-! ## Processes that answer with errors -/

/-- A process starts for a payload and takes it; it shows an output, changes nothing and ends with code
zero. -/
structure Shows (c : Setting) (payload output : Text) : Prop where
  starts : c.script.startFault? c.program (c.command payload) = none
  takesInput : c.script.inputFault? (c.command payload) = none
  stdout : (c.script.ruleFor (c.command payload)).stdout = Utf8.encode output
  effects : (c.script.ruleFor (c.command payload)).effects = []
  exitCode : (c.script.ruleFor (c.command payload)).exitCode = 0

/-- The processes answer loading and the questions about the holes of the file with errors, and an
evaluation with nothing. -/
structure AnswersErrors (c : Setting) (d : Disk) (onLoad : List Text) (onHole : Hole → List Text) :
    Prop where
  load : ∃ output, c.dialect.TellsErrors c.levels onLoad output ∧ c.Shows (Command.load c.file.toText) output
  holes : ∀ content, d.source c.file = .ok content → ∀ h ∈ Hole.scan content,
    ∃ output, c.dialect.TellsErrors c.levels (onHole h) output ∧ c.Shows (Command.goal h.id h.hint) output
  evaluation : c.mode.evaluate = true → c.Shows (Command.compute Command.entryPoint) []

/-- A command comes to what its process shows, and nothing is changed. -/
theorem Shows.reply_eq {c : Setting} {payload output : Text} (h : c.Shows payload output) (d : Disk) :
    c.reply d payload = (.ok output, d) := by
  have hnone : (Effect.performAll d.home []).run d = (.ok (), d) := rfl
  rw [reply, Script.reply, h.starts, Script.exchange, h.takesInput, h.effects, hnone]
  dsimp only
  rw [Rule.answer, if_pos h.exitCode, h.stdout, Utf8.decodeLossy_encode]

/-- The extractor with errors of these messages added. -/
def addErrors (messages : List Text) (x : Extractor) : Except Failure Extractor :=
  match (Extractor.feedFindings (messages.map .message)).run x with
  | (.ok (), x) => .ok x
  | (.error fault, _) => .error (.decode (.integer fault))

namespace AnswersErrors

variable {c : Setting} {d : Disk} {onLoad : List Text} {onHole : Hole → List Text}

theorem ask_eq {payload output : Text} {messages : List Text} {hole : Option Int}
    (ht : c.dialect.TellsErrors c.levels messages output) (hs : c.Shows payload output) (x : Extractor)
    (e : Disk) : c.ask payload hole x e = (addErrors messages x, e) := by
  rw [ask, query, hs.reply_eq, Except.bind, extract_eq, ht.decode]
  rfl

variable (h : c.AnswersErrors d onLoad onHole)

include h

theorem load_eq (e : Disk) : c.load e = (addErrors onLoad Extractor.empty, e) := by
  obtain ⟨output, ht, hs⟩ := h.load
  exact ask_eq ht hs Extractor.empty e

theorem askHole_eq {content : Text} (hsource : d.source c.file = .ok content) {o : Hole}
    (ho : o ∈ Hole.scan content) (x : Extractor) (e : Disk) :
    c.askHole o x e = (addErrors (onHole o) x, e) := by
  obtain ⟨output, ht, hs⟩ := h.holes content hsource o ho
  exact ask_eq ht hs x e

theorem result_eq (e : Disk) :
    c.result e = (.ok (if c.mode.evaluate then some noOutput else none), e) := by
  unfold result
  split
  · rename_i hw
    rw [Setting.evaluation, query, (h.evaluation hw).reply_eq]
    cases c.dialect <;> rfl
  · rfl

end AnswersErrors

/-! ## Agreement -/

/-- Two settings are of the same file, and the same is wanted of the checks. -/
structure Alike (c c' : Setting) : Prop where
  file : c'.file = c.file
  interactive : c'.mode.interactive = c.mode.interactive
  evaluate : c'.mode.evaluate = c.mode.evaluate

variable {c c' : Setting} {d : Disk} {onLoad : List Text} {onHole : Hole → List Text}

theorem Alike.command_eq (ha : Alike c c') (payload : Text) : c'.command payload = c.command payload := by
  rw [command, command, ha.file, ha.interactive]

section Agreement

variable (ha : Alike c c') (h : c.AnswersErrors d onLoad onHole)
  (h' : c'.AnswersErrors d onLoad onHole)

include ha h h'

omit ha in
theorem load_agrees (e : Disk) : c'.load e = c.load e := by rw [h.load_eq, h'.load_eq]

theorem askFrom_agrees {content : Text} (hsource : d.source c.file = .ok content) :
    ∀ (hs : List Hole), (∀ o ∈ hs, o ∈ Hole.scan content) → ∀ (k : Nat) (x : Extractor) (e : Disk),
      c'.askFrom k hs x e = c.askFrom k hs x e
  | [], _, _, _, _ => rfl
  | o :: hs, hmem, k, x, e => by
    have ih := askFrom_agrees hsource hs fun p hp => hmem p (.tail _ hp)
    have hsource' : d.source c'.file = .ok content := by rw [ha.file, hsource]
    have ho := hmem o (.head _)
    rw [askFrom, askFrom, h.askHole_eq hsource ho, h'.askHole_eq hsource' ho]
    cases addErrors (onHole o) x with
    | error f => rfl
    | ok y => exact ih (k + 1) y e

theorem closing_agrees (content : Text) (x : Extractor) (e : Disk) :
    c'.closing content x e = c.closing content x e := by
  rw [closing, closing, h.result_eq, h'.result_eq, ha.file, ha.evaluate]

/-- **The verdict depends on the messages, not on the dialect.** -/
theorem verdict_agrees : c'.verdict d = c.verdict d := by
  have hopening : c'.opening d = c.opening d := by
    rw [opening, opening, load_agrees h h', ha.file]
  rw [verdict, verdict, hopening]
  cases hopen : c.opening d with
  | error e => rfl
  | ok opened =>
    obtain ⟨content, x, e⟩ := opened
    have hsource : d.source c.file = .ok content := by
      have hopened := opened_of_opening hopen
      have hload := hopened.load
      rw [h.load_eq] at hload
      obtain rfl : d = e := (Prod.mk.inj hload).2
      exact hopened.source
    dsimp only
    rw [askFrom_agrees ha h h' hsource _ fun _ ho => ho]
    cases c.askFrom 0 (Hole.scan content) x e with
    | error f => rfl
    | ok asked => exact closing_agrees ha h h' content asked.1 asked.2

theorem plan_agrees : c'.plan d = c.plan d := by
  have hcontent : c'.content d = c.content d := by
    rw [content, content, load_agrees h h', ha.file]
  have hgoal : c'.goalCommand = c.goalCommand := funext fun o => ha.command_eq _
  rw [plan, plan, hcontent, hgoal, ha.command_eq, lastCommands, lastCommands, ha.command_eq,
    ha.evaluate, ha.file]

theorem stage_agrees : c'.stage d = c.stage d := by
  rw [stage, stage, verdict_agrees ha h h']
  rcases c.verdict d with ⟨step, f⟩ | r
  · cases step <;> simp [Step.stage, ha.evaluate]
  · rfl

end Agreement

end Checking.Setting

/-- **The dialects agree on errors.**  Two checks of a file on the same file system, of which the same is
wanted and whose processes tell the same errors, each in the dialect of its session, hand out the same
commands, come to the same stage, and give the same report or the same failure. -/
theorem Checker.dialects_agree {k k' : Checker} {file : Path} {mode mode' : Mode} {w w' : World}
    {onLoad : List Text} {onHole : Hole → List Text} (hdisk : w'.disk = w.disk)
    (hinteractive : mode'.interactive = mode.interactive) (hevaluate : mode'.evaluate = mode.evaluate)
    (h : (k.setting w file mode).AnswersErrors w.disk onLoad onHole)
    (h' : (k'.setting w' file mode').AnswersErrors w'.disk onLoad onHole) :
    ∃ r k₁ w₁ k₁' w₁' sent, (check file mode).run k w = ((r, k₁), w₁) ∧
      (check file mode').run k' w' = ((r, k₁'), w₁') ∧
      w₁.journal.commands = w.journal.commands ++ sent ∧
      w₁'.journal.commands = w'.journal.commands ++ sent ∧ k₁'.stage = k₁.stage := by
  have ha : Checking.Setting.Alike (k.setting w file mode) (k'.setting w' file mode') :=
    ⟨rfl, hinteractive, hevaluate⟩
  rw [hdisk] at h'
  have hverdict := Checking.Setting.verdict_agrees ha h h'
  have hplan := Checking.Setting.plan_agrees ha h h'
  obtain ⟨k₁, w₁, hrun, hsent, hstage⟩ := k.check_course file mode w
  obtain ⟨k₁', w₁', hrun', hsent', hstage'⟩ := k'.check_course file mode' w'
  rw [hdisk, Checking.Setting.report, hverdict] at hrun'
  rw [hdisk, Checking.Setting.sent, hverdict, hplan] at hsent'
  rw [hdisk, Checking.Setting.stage_agrees ha h h', ← hstage] at hstage'
  exact ⟨_, k₁, w₁, k₁', w₁', _, hrun, hrun', hsent, hsent', hstage'⟩

namespace Checker.DialectSample

/-- The file `/a`. -/
def file : Path := ⟨.root, [['a']]⟩

/-- Messages with a quote, a line that looks like a unit behind a prompt, and a place. -/
def messages : List Text :=
  ["a:1,1-2\n\"".toList, "Agda2> (agda2-info-action \"x\" nil)\nJSON> {}".toList]

/-- The file has one hole.  Loading it gives all messages and its hole the first one again; an
evaluation gives nothing. -/
def world (dialect : Dialect) : World where
  disk := { entries := [([['a']], .file (Utf8.encode "{!!}".toList))] }
  script := { rules := [
    { pattern := "Cmd_load".toList, stdout := Utf8.encode (dialect.tell messages) },
    { pattern := "Cmd_goal".toList, stdout := Utf8.encode (dialect.tell (messages.take 1)) }] }

def mode (dialect : Dialect) : Mode := { evaluate := true, dialect }

theorem answersErrors (dialect : Dialect) :
    (Checker.setting {} (world dialect) file (mode dialect)).AnswersErrors (world dialect).disk messages
      fun _ => messages.take 1 where
  load := ⟨_, dialect.tellsErrors_tell .usual messages, rfl, rfl, rfl, rfl, rfl⟩
  holes := by
    intro content hcontent h hh
    have hscan : Hole.scan content = [⟨0, 1, 1, "?".toList⟩] := by
      cases hcontent
      decide +kernel
    rw [hscan, List.mem_singleton] at hh
    subst hh
    exact ⟨_, dialect.tellsErrors_tell .usual _, rfl, rfl, rfl, rfl, rfl⟩
  evaluation := fun _ => ⟨rfl, rfl, rfl, rfl, rfl⟩

end Checker.DialectSample

section

open Checker.DialectSample

theorem Checker.dialects_agree_sample :
    (Checker.setting {} (world .json) file (mode .json)).AnswersErrors (world .json).disk messages
        (fun _ => messages.take 1) ∧
      (Checker.setting {} (world .text) file (mode .text)).AnswersErrors (world .text).disk messages
        (fun _ => messages.take 1) ∧
      ∃ r k₁ w₁ k₁' w₁' sent, (check file (mode .json)).run {} (world .json) = ((r, k₁), w₁) ∧
        (check file (mode .text)).run {} (world .text) = ((r, k₁'), w₁') ∧
        w₁.journal.commands = (world .json).journal.commands ++ sent ∧
        w₁'.journal.commands = (world .text).journal.commands ++ sent ∧ k₁'.stage = k₁.stage :=
  ⟨answersErrors .json, answersErrors .text,
    dialects_agree rfl rfl rfl (answersErrors .json) (answersErrors .text)⟩

end

end AgdaFrontEnd
