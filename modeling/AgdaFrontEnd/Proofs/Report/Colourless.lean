import AgdaFrontEnd.Proofs.Batch.Accounts
import AgdaFrontEnd.Proofs.Render.Unstyling
import AgdaFrontEnd.Proofs.Report.Block

/-!
# Plain reports

The blocks of a report and the text of a batch, stripped of their styles, are the same as if they had
been written without codes in the first place, if the texts that they show have no escape characters.

* `Goal.IsEscapeFree`, `Disk.IsEscapeFree`: goals and file systems without escape characters.
* `Goal.unstyles_block`, `Diagnostic.unstyles_blockOf`: blocks in two palettes.
* `Diagnostic.run_block`: what a diagnostic reads does not depend on the palette.
* `BatchReport.ofOutcomes`: the report of a batch in any palette; `Batch.exists_outcomes` says that a
  batch gives such a report.
* `Report.plain_is_colourless`: stripping takes the codes away and nothing else.
-/

namespace AgdaFrontEnd

open Text

/-! ## Texts without escape characters -/

/-- No text of the goal has an escape character. -/
structure Goal.IsEscapeFree (g : Goal) : Prop where
  type : '\x1b' ∉ g.type
  context : ∀ e ∈ g.context, '\x1b' ∉ e.1 ∧ '\x1b' ∉ e.2

namespace Disk

/-- No text in a file has an escape character. -/
def IsEscapeFree (d : Disk) : Prop :=
  ∀ place bytes text, d.get? place = some (.file bytes) → Utf8.decode bytes = .ok text → '\x1b' ∉ text

variable {d : Disk} {path : Path} {text : Text}

/-- Line ends are all that is changed in a text that is read. -/
theorem escape_not_mem_unifyLineEnds (h : '\x1b' ∉ text) : '\x1b' ∉ unifyLineEnds text := by
  fun_induction unifyLineEnds text with
  | case1 => exact h
  | case2 r ih => simp_all
  | case3 c r hcr ih =>
    rw [List.mem_cons, not_or] at h ⊢
    refine ⟨?_, ih h.2⟩
    split
    · decide
    · exact h.1

/-- The text of a path is that of a file, but for its line ends. -/
theorem exists_file_of_readText (h : d.readText path = .ok text) :
    ∃ place bytes raw, d.get? place = some (.file bytes) ∧ Utf8.decode bytes = .ok raw ∧
      text = unifyLineEnds raw := by
  unfold readText readBytes stat at h
  cases hplace : d.follow .found path with
  | error fault =>
    rw [hplace] at h
    cases h
  | ok place =>
    rw [hplace] at h
    rcases hentry : d.get? place with _ | _ | bytes | target <;>
      simp only [hentry, bind, Except.bind, pure, Except.pure, throw, throwThe,
        MonadExceptOf.throw, Except.mapError] at h
    · cases h
    · cases h
    · cases hraw : Utf8.decode bytes with
      | error fault =>
        rw [hraw] at h
        cases h
      | ok raw =>
        rw [hraw] at h
        cases h
        exact ⟨place, bytes, raw, hentry, hraw, rfl⟩
    · cases h

/-- What is read for a snippet has no escape characters. -/
theorem IsEscapeFree.source (hd : d.IsEscapeFree) (h : d.source path = .ok text) : '\x1b' ∉ text := by
  unfold Disk.source at h
  split at h
  · rename_i t hread
    cases h
    obtain ⟨place, bytes, raw, hfile, hraw, rfl⟩ := exists_file_of_readText hread
    exact escape_not_mem_unifyLineEnds (hd place bytes raw hfile hraw)
  · cases h
  · cases h
    exact List.not_mem_nil
  · cases h

end Disk

/-! ## Blocks -/

section Blocks

variable {p q : Palette} (h : p.Unstyles q)

include h

/-- **The block of a goal.** -/
theorem Goal.unstyles_block {g : Goal} (hg : g.IsEscapeFree) {target : Path}
    (htarget : '\x1b' ∉ target.toText) {content : Text} (hcontent : '\x1b' ∉ content) :
    Unstyles (g.block p target content) (g.block q target content) := by
  have hword := unstyles_of_not_mem (t := "Goal: ".toList) (by decide)
  have hcontext : '\x1b' ∉ contextLines g.context := by
    intro hm
    obtain ⟨e, he, hm⟩ := List.mem_flatMap.1 hm
    simp [hg.context e he] at hm
  have htitle := (((h.bold.append hword).append (unstyles_of_not_mem hg.type)).append h.reset).append
    unstyles_newline
  have hlines := ((htitle.append (unstyles_of_not_mem hcontext)).append
    (Message.unstyles_fileLine h htarget)).append unstyles_newline
  refine hlines.append ?_
  split
  · split
    · exact unstyles_nil
    · exact Snippet.unstyles_render h (.inr rfl) _ hcontent
  · exact unstyles_nil

/-- **The block of a message**, in its short form or as it is. -/
theorem Diagnostic.unstyles_blockOf {message : Text} (hmessage : '\x1b' ∉ message) {t u : Text}
    (hsnippet : Unstyles t u) : Unstyles (blockOf p message t) (blockOf q message u) := by
  have hshort := Message.rel_short? h hmessage
  unfold blockOf
  generalize Message.short? p message = s, Message.short? q message = s' at hshort
  cases hshort with
  | some hshort => exact (hshort.append unstyles_newline).append hsnippet
  | none =>
    have htitle := h.title (t := "Error:".toList) (by decide)
    have hbody := unstyles_of_not_mem (t := [' '] ++ message ++ ['\n']) (by simp [hmessage])
    have hfile := Message.unstyles_fileLine h (Message.not_mem_upTo hmessage ':')
    simpa [Location.fileOf] using (((htitle.append hbody).append hfile).append unstyles_newline).append
      hsnippet

end Blocks

namespace Diagnostic

variable (d : Diagnostic) (target : Path) (content : Option Text)

/-- The text of the file that a diagnostic points into. -/
def sourceText : Act Text := do
  let source ← d.source target
  match (if source = target then content else none) with
  | some t => pure t
  | none => Act.readSource source

/-- The snippet of a range in the text of a file, which may be empty. -/
def snippetIn (p : Palette) (range : SourceRange) (text : Text) : Text :=
  if text.isEmpty then [] else Snippet.render p text range .red

variable {d target content} {p : Palette} {w : World}

theorem run_block_of_none (hrange : d.range = none) :
    (d.block p target content).run w = (.ok (blockOf p d.message []), w) := by
  unfold block snippet
  rw [hrange]
  rfl

/-- **What a diagnostic reads does not depend on the palette**: only what it makes of it does. -/
theorem run_block {range : SourceRange} (hrange : d.range = some range) :
    (d.block p target content).run w =
      (((d.sourceText target content).run w).1.map fun text =>
          blockOf p d.message (snippetIn p range text),
        ((d.sourceText target content).run w).2) := by
  have hblock : d.block p target content = (do
      let text ← d.sourceText target content
      return blockOf p d.message (snippetIn p range text)) := by
    unfold block snippet sourceText snippetIn
    rw [hrange]
    simp only [bind_assoc]
    refine congrArg (d.source target >>= ·) (funext fun source => ?_)
    -- the rest of the activity stands in both branches of the choice of a text
    cases (if source = target then content else none) with
    | some t =>
      simp only [pure_bind]
      split <;> rfl
    | none =>
      simp only [bind_assoc]
      refine congrArg (Act.readSource source >>= ·) (funext fun text => ?_)
      split <;> rfl
  rw [hblock]
  rcases hrun : (d.sourceText target content).run w with ⟨_ | text, w'⟩
  · exact run_bind_error hrun _
  · exact run_bind_ok hrun _

/-- The text that is shown has no escape characters. -/
theorem escape_not_mem_sourceText (hcontent : ∀ t ∈ content, '\x1b' ∉ t)
    (hd : w.disk.IsEscapeFree) {text : Text}
    (htext : ((d.sourceText target content).run w).1 = .ok text) : '\x1b' ∉ text := by
  obtain ⟨notes, -, hsource⟩ := (d.onlyReads_source target).reads.run_eq w
  unfold sourceText at htext
  cases hfound : (d.source target).outcomeOn w.disk with
  | error f =>
    rw [hfound] at hsource
    rw [run_bind_error hsource] at htext
    cases htext
  | ok source =>
    rw [hfound] at hsource
    rw [run_bind_ok hsource] at htext
    split at htext
    · rename_i t hsome
      cases htext
      split at hsome
      · exact hcontent text hsome
      · cases hsome
    · obtain ⟨_, -, hread⟩ := Act.exists_run_readSource source w.disk
      rw [hread { w with journal := w.journal ++ notes } rfl] at htext
      exact hd.source htext

/-- **The block of a diagnostic**: in both palettes the same is read, with the same failures and notes. -/
theorem run_block_plain (hmessage : '\x1b' ∉ d.message) (hcontent : ∀ t ∈ content, '\x1b' ∉ t)
    (hd : w.disk.IsEscapeFree) : (d.block .plain target content).run w =
      (((d.block .terminal target content).run w).1.map stripStyles,
        ((d.block .terminal target content).run w).2) := by
  have hblock {t u : Text} (hsnippet : Unstyles t u) :
      (blockOf .terminal d.message t).stripStyles = blockOf .plain d.message u :=
    (unstyles_blockOf Palette.terminal_unstyles hmessage hsnippet).stripStyles_eq
  cases hrange : d.range with
  | none =>
    rw [run_block_of_none hrange, run_block_of_none hrange, ← hblock unstyles_nil]
    rfl
  | some range =>
    rw [run_block hrange, run_block hrange]
    cases htext : ((d.sourceText target content).run w).1 with
    | error f => rfl
    | ok text =>
      have hsnippet : Unstyles (snippetIn .terminal range text) (snippetIn .plain range text) := by
        unfold snippetIn
        split
        · exact unstyles_nil
        · exact Snippet.unstyles_render Palette.terminal_unstyles (.inl rfl) range
            (escape_not_mem_sourceText hcontent hd htext)
      simp only [Except.map, hblock hsnippet]

end Diagnostic

/-! ## Batches -/

namespace BatchReport

/-- The two reports are about the same files, and their lines differ by styles. -/
structure Unstyles (r s : BatchReport) : Prop where
  checked : r.checked = s.checked
  errored : r.errored = s.errored
  lines : List.Forall₂ Text.Unstyles r.lines s.lines

/-- The report of files that passed or failed. -/
def ofOutcomes (p : Palette) (outcomes : List (Path × Bool)) : BatchReport :=
  outcomes.foldl (fun r o => r.add p o.1 o.2) {}

section Palettes

variable {p q : Palette} (h : p.Unstyles q) {r s : BatchReport}

include h

theorem Unstyles.add (hr : r.Unstyles s) {file : Path} (hfile : '\x1b' ∉ file.toText) (passed : Bool) :
    (r.add p file passed).Unstyles (s.add q file passed) := by
  unfold BatchReport.add
  split
  · have hline := h.coloured (.inr rfl) (t := "✓ ".toList ++ file.toText) (by simp [hfile])
    exact ⟨congrArg (· ++ [file]) hr.checked, hr.errored, List.rel_append hr.lines (.cons hline .nil)⟩
  · have hline := h.coloured (.inl rfl) (t := "✗ ".toList ++ file.toText) (by simp [hfile])
    exact ⟨hr.checked, congrArg (· ++ [file]) hr.errored, List.rel_append hr.lines (.cons hline .nil)⟩

theorem unstyles_ofOutcomes {outcomes : List (Path × Bool)}
    (houtcomes : ∀ o ∈ outcomes, '\x1b' ∉ o.1.toText) :
    (ofOutcomes p outcomes).Unstyles (ofOutcomes q outcomes) := by
  have hfold : ∀ r s : BatchReport, r.Unstyles s →
      (outcomes.foldl (fun r o => r.add p o.1 o.2) r).Unstyles
        (outcomes.foldl (fun r o => r.add q o.1 o.2) s) := by
    induction outcomes with
    | nil => exact fun _ _ hr => hr
    | cons o os ih =>
      obtain ⟨ho, hos⟩ := List.forall_mem_cons.1 houtcomes
      exact fun r s hr => ih hos _ _ (hr.add h ho o.2)
  exact hfold {} {} ⟨rfl, rfl, .nil⟩

/-- **The text of a report**, whether files failed or not. -/
theorem Unstyles.text (hr : r.Unstyles s) : Text.Unstyles (r.text p) (s.text q) := by
  have hcount (n : Nat) : '\x1b' ∉ ofNat n := fun hm => absurd (isDigit_of_mem_ofNat hm) (by decide)
  have hall := h.coloured (.inr rfl) (t := "All files checked!".toList) (by decide)
  have hchecked := h.coloured (.inr rfl) (t := ofNat s.checked.length ++ " file(s) checked.".toList)
    (by simp [hcount])
  have herrored := h.coloured (.inl rfl)
    (t := ofNat s.errored.length ++ " file(s) with errors.".toList) (by simp [hcount])
  unfold BatchReport.text
  rw [hr.checked, hr.errored]
  refine unstyles_unlines (List.rel_append hr.lines ?_)
  split
  · exact .cons hall .nil
  · exact .cons hchecked (.cons herrored .nil)

end Palettes

end BatchReport

/-- A batch that comes to its end gives the report of its files, as they passed or failed. -/
theorem Batch.exists_outcomes {directory : Text} {mode : Mode} {k : Checker} {w : World}
    {r : BatchReport} (h : ((Batch.run directory mode).run k w).1.1 = .ok r) :
    ∃ outcomes, w.disk.sources (Path.ofText directory) = .ok (outcomes.map Prod.fst) ∧
      r = BatchReport.ofOutcomes .terminal outcomes := by
  obtain ⟨vs, -, -, -, hfiles, -, rfl⟩ := Batch.run_eq_ok_iff.1 h
  refine ⟨vs.map fun v => (v.file, v.passed), ?_, ?_⟩
  · rw [hfiles, List.map_map]
    rfl
  · rw [BatchReport.ofOutcomes, List.foldl_map]
    rfl

/-! ## Plain reports -/

/-- **Plain text is what is left when the codes are stripped.**  That holds of the blocks of goals and
diagnostics, whose sources are read alike, of snippets in the two colours with a name, and of the
texts of batch reports, be they of given lines or made up file by file as a batch does. -/
theorem Report.plain_is_colourless :
    (∀ (g : Goal) (target : Path) (content : Text), g.IsEscapeFree → '\x1b' ∉ target.toText →
      '\x1b' ∉ content →
        (g.block .terminal target content).stripStyles = g.block .plain target content) ∧
    (∀ (d : Diagnostic) (target : Path) (content : Option Text) (w : World), '\x1b' ∉ d.message →
      (∀ t ∈ content, '\x1b' ∉ t) → w.disk.IsEscapeFree →
        (d.block .plain target content).run w =
          (((d.block .terminal target content).run w).1.map stripStyles,
            ((d.block .terminal target content).run w).2)) ∧
    (∀ (content : Text) (range : SourceRange) (colour : Colour), '\x1b' ∉ content → colour.IsNamed →
      (Snippet.render .terminal content range colour).stripStyles =
        Snippet.render .plain content range colour) ∧
    (∀ r : BatchReport, (∀ l ∈ r.lines, '\x1b' ∉ l) → (r.text .terminal).stripStyles = r.text .plain) ∧
    (∀ outcomes : List (Path × Bool), (∀ o ∈ outcomes, '\x1b' ∉ o.1.toText) →
      ((BatchReport.ofOutcomes .terminal outcomes).text .terminal).stripStyles =
        (BatchReport.ofOutcomes .plain outcomes).text .plain) ∧
    ∀ (directory : Text) (mode : Mode) (k : Checker) (w : World) (r : BatchReport),
      ((Batch.run directory mode).run k w).1.1 = .ok r →
        ∃ outcomes, w.disk.sources (Path.ofText directory) = .ok (outcomes.map Prod.fst) ∧
          r = BatchReport.ofOutcomes .terminal outcomes := by
  have hcodes := Palette.terminal_unstyles
  refine ⟨fun g target content hg htarget hcontent => ?_,
    fun d target content w hmessage hcontent hd => ?_, fun content range colour hcontent hcolour => ?_,
    fun r hlines => ?_, fun outcomes houtcomes => ?_, fun _ _ _ _ _ h => Batch.exists_outcomes h⟩
  · exact (g.unstyles_block hcodes hg htarget hcontent).stripStyles_eq
  · exact Diagnostic.run_block_plain hmessage hcontent hd
  · exact (Snippet.unstyles_render hcodes hcolour range hcontent).stripStyles_eq
  · have hr : r.Unstyles r :=
      ⟨rfl, rfl, List.forall₂_same.2 fun l hl => unstyles_of_not_mem (hlines l hl)⟩
    exact (hr.text hcodes).stripStyles_eq
  · exact ((BatchReport.unstyles_ofOutcomes hcodes houtcomes).text hcodes).stripStyles_eq

namespace Report.Sample

/-- A goal with a context, and a range in a line that goes on like a code. -/
def goal : Goal :=
  ⟨some 0, some ⟨2, 1, 2, 3, by decide⟩, "1m".toList, [("x".toList, "Nat".toList)]⟩

/-- A source whose second line goes on like a code. -/
def source : Text := "x = ?\n0m;c".toList

/-- A mismatch in another file than the one that was checked. -/
def mismatch : Diagnostic :=
  ⟨"A.agda:2,2-3\n7m != Set".toList, "A.agda".toList, some ⟨2, 2, 2, 3, by decide⟩⟩

/-- The file in question and the one that was checked. -/
def world : World where
  disk := ({} : Disk).put ["A.agda".toList] (.file (Utf8.encode source))

/-- The file that was checked. -/
def target : Path := ⟨.here, ["B.agda".toList]⟩

theorem isEscapeFree_world : world.disk.IsEscapeFree := by
  intro place bytes text hfile hdecode
  have hput := Disk.get?_put {} ["A.agda".toList] place (.file (Utf8.encode source)) (by decide)
    (by decide)
  have hnone : ∀ bytes, ({} : Disk).get? place ≠ some (.file bytes) := by
    intro bytes
    unfold Disk.get?
    split <;> simp
  have hsource : Utf8.decode (Utf8.encode source) = .ok source := by decide +kernel
  have hentry := hput.symm.trans hfile
  split at hentry
  · cases hentry
    cases hsource.symm.trans hdecode
    decide
  · exact absurd hentry (hnone bytes)

theorem plain_is_colourless_samples :
    (goal.block .terminal target source).stripStyles =
      "Goal: 1m\n- x : Nat\nB.agda\n2 | 0m;c\n".toList ∧
    (((mismatch.block .terminal target none).run world).1.map stripStyles).toOption =
      some "TypeMismatch:\n- expected: Set\n- detected: 7m\nA.agda\n2 | 0m;c\n".toList ∧
    ((BatchReport.ofOutcomes .terminal [(target, true), (target, false)]).text .terminal).stripStyles =
      "✓ B.agda\n✗ B.agda\n1 file(s) checked.\n1 file(s) with errors.".toList := by
  obtain ⟨hgoal, hdiagnostic, -, -, hbatch, -⟩ := plain_is_colourless
  have hfree : goal.IsEscapeFree := ⟨by decide, by decide⟩
  have hblock := congrArg (fun x => x.1.toOption)
    (hdiagnostic mismatch target none world (by decide) (by simp) isEscapeFree_world)
  exact ⟨(hgoal goal target source hfree (by decide) (by decide)).trans (by decide +kernel),
    hblock.symm.trans (by decide +kernel), (hbatch _ (by decide +kernel)).trans (by decide +kernel)⟩

end Report.Sample

end AgdaFrontEnd
