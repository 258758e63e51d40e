import AgdaFrontEnd.Response.Unit
import AgdaFrontEnd.Proofs.Response.Quoted
import AgdaFrontEnd.Proofs.Text.Margins

/-!
# Round trip of the textual dialect

A unit is written on a line of its own: its directive and its quoted fields in parentheses.  Around
it stand blanks, and a prompt perhaps.  An output mixes such lines with lines that open no unit.

* `InfoAction.write`: a unit as it is written.
* `InfoAction.Opens`: what a line looks like that opens a unit; `opening?_eq_some_iff` says that
  just these are found.
* `OutputLine`: a line of an output, with the unit on it if it has one.
* `InfoAction.parse_unlines_text`: reading an output gives the units on its lines.
-/

namespace AgdaFrontEnd

namespace InfoAction

/-! ## Lines that open a unit -/

/-- The directives that open a unit. -/
def IsDirective (d : Text) : Prop := d = plain ∨ d = andCopy

instance (d : Text) : Decidable (IsDirective d) := inferInstanceAs (Decidable (_ ∨ _))

/-- A line opens a unit if its payload is a parenthesis with a directive and a blank behind it. -/
def Opens (line : Text) : Prop :=
  ∃ d r, ∃ c, IsDirective d ∧ isBlank c = true ∧ payload line = '(' :: (d ++ c :: r)

theorem word?_eq_some_iff {t d e r : Text} :
    word? t d = some (e, r) ↔ e = d ∧ ∃ c, isBlank c = true ∧ t = d ++ c :: r := by
  constructor
  · intro h
    unfold word? at h
    split at h
    · rename_i c s hs
      split at h
      · rename_i hc
        cases h
        exact ⟨rfl, c, hc, Text.eq_append_of_dropPrefix? hs⟩
      · cases h
    · cases h
  · rintro ⟨rfl, c, hc, rfl⟩
    simp [word?, Text.dropPrefix?_append, hc]

/-- A text with the shorter directive and a blank does not start with the longer one. -/
theorem word?_andCopy_plain {c : Char} (hc : isBlank c = true) (r : Text) :
    word? (plain ++ c :: r) andCopy = none := by
  have hne : c ≠ '-' := by
    rintro rfl
    exact absurd hc (by decide)
  cases h : Text.dropPrefix? (plain ++ c :: r) andCopy with
  | none => simp [word?, h]
  | some s =>
    have he := Text.eq_append_of_dropPrefix? h
    rw [andCopy, List.append_assoc, List.append_cancel_left_eq] at he
    exact absurd (List.cons.inj he).1 hne

theorem directive?_paren (t : Text) :
    directive? ('(' :: t) = (word? t andCopy).or (word? t plain) := by
  have hp := Text.dropPrefix?_append ['('] t
  rw [List.singleton_append] at hp
  rw [directive?, hp]
  simp only [Option.bind_some, List.findSome?_cons, List.findSome?_nil]
  cases word? t andCopy <;> cases word? t plain <;> rfl

theorem directive?_eq_some_iff {t d r : Text} :
    directive? t = some (d, r) ↔
      IsDirective d ∧ ∃ c, isBlank c = true ∧ t = '(' :: (d ++ c :: r) := by
  constructor
  · intro h
    cases hp : t.dropPrefix? ['('] with
    | none => simp [directive?, hp] at h
    | some s =>
      obtain rfl := Text.eq_append_of_dropPrefix? hp
      rw [List.singleton_append, directive?_paren, Option.or_eq_some_iff] at h
      rcases h with h | ⟨-, h⟩
      · obtain ⟨rfl, c, hc, rfl⟩ := word?_eq_some_iff.1 h
        exact ⟨.inr rfl, c, hc, rfl⟩
      · obtain ⟨rfl, c, hc, rfl⟩ := word?_eq_some_iff.1 h
        exact ⟨.inl rfl, c, hc, rfl⟩
  · rintro ⟨hd, c, hc, rfl⟩
    rw [directive?_paren, Option.or_eq_some_iff]
    rcases hd with rfl | rfl
    · exact .inr ⟨word?_andCopy_plain hc r, word?_eq_some_iff.2 ⟨rfl, c, hc, rfl⟩⟩
    · exact .inl (word?_eq_some_iff.2 ⟨rfl, c, hc, rfl⟩)

theorem opening?_eq_some_iff {line d r : Text} :
    opening? line = some (d, r) ↔
      IsDirective d ∧ ∃ c, isBlank c = true ∧ payload line = '(' :: (d ++ c :: r) :=
  directive?_eq_some_iff

theorem isSome_opening?_iff {line : Text} : (opening? line).isSome = true ↔ Opens line := by
  rw [Option.isSome_iff_exists]
  constructor
  · rintro ⟨⟨d, r⟩, h⟩
    obtain ⟨hd, c, hc, ht⟩ := opening?_eq_some_iff.1 h
    exact ⟨d, r, c, hd, hc, ht⟩
  · rintro ⟨d, r, c, hd, hc, ht⟩
    exact ⟨(d, r), opening?_eq_some_iff.2 ⟨hd, c, hc, ht⟩⟩

instance (line : Text) : Decidable (Opens line) := decidable_of_iff _ isSome_opening?_iff

/-- The lines that are passed over are those that open no unit. -/
theorem opening?_eq_none {line : Text} (h : ¬ Opens line) : opening? line = none := by
  rw [← isSome_opening?_iff] at h
  simpa using h

/-! ## A unit on its line -/

/-- The fields of a unit and its end. -/
def writeFields (fields : List Text) : Text :=
  [' '].intercalate (fields.map Quoted.write) ++ " nil)".toList

/-- A unit as it is written. -/
def write (u : InfoAction) : Text := '(' :: (u.directive ++ ' ' :: writeFields u.fields)

theorem writeFields_cons_cons (f g : Text) (fs : List Text) :
    writeFields (f :: g :: fs) = Quoted.write f ++ ' ' :: writeFields (g :: fs) := by
  simp [writeFields]

theorem outside_end (depth : Int) :
    Quoted.outside depth " nil)".toList = ⟨[], decide (depth - 1 ≤ 0)⟩ := by
  simp [Quoted.outside]

theorem outside_writeFields (depth : Int) : ∀ fields : List Text,
    Quoted.outside depth (writeFields fields) = ⟨fields, decide (depth - 1 ≤ 0)⟩
  | [] => outside_end depth
  | [f] => by
    rw [writeFields, List.map_singleton, List.intercalate_singleton, Quoted.outside_write,
      outside_end]
    rfl
  | f :: g :: fs => by
    rw [writeFields_cons_cons, Quoted.outside_write,
      Quoted.outside_blank (by decide) (by decide) (by decide), outside_writeFields depth (g :: fs)]
    rfl

/-- **The fields of a written unit are scanned as they are**, and the unit is complete. -/
theorem scan_writeFields (fields : List Text) :
    Quoted.scan ('(' :: writeFields fields) = ⟨fields, true⟩ := by
  have h := outside_writeFields 1 fields
  simpa [Quoted.scan, Quoted.outside] using h

theorem isSolid_write (u : InfoAction) : Text.IsSolid u.write where
  head := ⟨'(', _, rfl, by decide⟩
  last := ⟨'(' :: (u.directive ++ ' ' :: ([' '].intercalate (u.fields.map Quoted.write) ++
    " nil".toList)), ')', by simp [write, writeFields], by decide⟩

theorem not_mem_writeFields : ∀ fields : List Text, '\n' ∉ writeFields fields
  | [] => by decide
  | [f] => by
    have h := Quoted.not_mem_write (.inl rfl) f
    simpa [writeFields] using h
  | f :: g :: fs => by
    have h := Quoted.not_mem_write (.inl rfl) f
    have hr := not_mem_writeFields (g :: fs)
    rw [writeFields_cons_cons]
    simp [h, hr]

theorem not_mem_write {u : InfoAction} (hu : IsDirective u.directive) : '\n' ∉ u.write := by
  have hd : '\n' ∉ u.directive := by rcases hu with h | h <;> rw [h] <;> decide
  simp [write, hd, not_mem_writeFields]

/-! ## Between margins, behind a prompt -/

/-- What stands between the margin of a line and its unit: nothing, or a prompt with a blank and a
margin of its own. -/
def promptText : Option Text → Text
  | none => []
  | some gap => prompt ++ ' ' :: gap

theorem promptText_eq (prompted : Option Text) : promptText prompted = Text.lead prompt prompted := by
  cases prompted <;> rfl

theorem dropPrefix?_prompt_write (u : InfoAction) : u.write.dropPrefix? prompt = none := by
  simp [write, prompt, Text.dropPrefix?]

/-- **The payload of a line is its unit**, whatever margins and prompt it has. -/
theorem payload_write {before after : Text} {prompted : Option Text} (u : InfoAction)
    (hb : Text.IsMargin before) (hp : ∀ gap ∈ prompted, Text.IsMargin gap)
    (ha : Text.IsMargin after) :
    payload (before ++ ((promptText prompted ++ u.write) ++ after)) = u.write := by
  rw [promptText_eq]
  exact Text.unprompt_of_margins ⟨'A', _, rfl, by decide⟩ (isSolid_write u)
    (dropPrefix?_prompt_write u) hb hp ha

end InfoAction

/-- A line of an output. -/
inductive OutputLine where
  /-- A unit between margins.  Where a prompt stands before it, a margin follows the prompt. -/
  | unit (u : InfoAction) (before : Text) (prompted : Option Text) (after : Text)
  /-- A line without a unit. -/
  | other (line : Text)

namespace OutputLine

/-- What a line has to fulfil: a unit has one of the directives and stands between margins, and
another line opens no unit. -/
def Valid : OutputLine → Prop
  | unit u before prompted after =>
    InfoAction.IsDirective u.directive ∧ Text.IsMargin before ∧
      (∀ gap ∈ prompted, Text.IsMargin gap) ∧ Text.IsMargin after
  | other line => '\n' ∉ line ∧ ¬ InfoAction.Opens line

instance (l : OutputLine) : Decidable l.Valid := by
  cases l <;> unfold Valid <;> infer_instance

/-- The text of a line. -/
def text : OutputLine → Text
  | unit u before prompted after =>
    before ++ ((InfoAction.promptText prompted ++ u.write) ++ after)
  | other line => line

/-- The unit on a line, if it has one. -/
def unit? : OutputLine → Option InfoAction
  | unit u _ _ _ => some u
  | other _ => none

theorem Valid.not_mem_text {l : OutputLine} (h : l.Valid) : '\n' ∉ l.text := by
  cases l with
  | unit u before prompted after =>
    obtain ⟨hu, hb, hp, ha⟩ := h
    have hq : '\n' ∉ InfoAction.promptText prompted := by
      rw [InfoAction.promptText_eq]
      exact Text.not_mem_lead (by decide) hp
    simp [text, hb.not_mem, ha.not_mem, hq, InfoAction.not_mem_write hu]
  | other line => exact h.1

/-- A line gives the unit on it, and the lines after it are read afresh. -/
theorem parseLines_text {l : OutputLine} (h : l.Valid) (ls : List Text) :
    InfoAction.parseLines none (l.text :: ls) = l.unit?.toList ++ InfoAction.parseLines none ls := by
  cases l with
  | unit u before prompted after =>
    obtain ⟨hu, hb, hp, ha⟩ := h
    have ho : InfoAction.opening? (text (.unit u before prompted after)) =
        some (u.directive, InfoAction.writeFields u.fields) :=
      InfoAction.opening?_eq_some_iff.2 ⟨hu, ' ', by decide, InfoAction.payload_write u hb hp ha⟩
    simp [InfoAction.parseLines, ho, InfoAction.scan_writeFields, unit?]
  | other line =>
    have ho : InfoAction.opening? line = none := InfoAction.opening?_eq_none h.2
    simp [InfoAction.parseLines, text, ho, unit?]

theorem parseLines_map_text : ∀ ls : List OutputLine, (∀ l ∈ ls, l.Valid) →
    InfoAction.parseLines none (ls.map text) = ls.filterMap unit?
  | [], _ => rfl
  | l :: ls, h => by
    have hl := h l List.mem_cons_self
    have ih := parseLines_map_text ls fun l' hl' => h l' (List.mem_cons_of_mem _ hl')
    rw [List.map_cons, parseLines_text hl, ih]
    cases l <;> rfl

end OutputLine

/-! ## Whole outputs -/

/-- **Reading an output gives the units on its lines**, in order and with their fields as they were
before they were written, whatever other lines stand between them. -/
theorem InfoAction.parse_unlines_text (ls : List OutputLine) (h : ∀ l ∈ ls, l.Valid) :
    InfoAction.parse (Text.unlines (ls.map OutputLine.text)) = ls.filterMap OutputLine.unit? := by
  by_cases hne : ls = []
  · subst hne
    decide
  · have hlines : Text.lines (Text.unlines (ls.map OutputLine.text)) = ls.map OutputLine.text := by
      apply Text.lines_unlines (by simpa using hne)
      intro t ht
      obtain ⟨l, hl, rfl⟩ := List.mem_map.1 ht
      exact (h l hl).not_mem_text
    rw [InfoAction.parse, hlines, OutputLine.parseLines_map_text ls h]

/-- An output in which a field quotes a unit, a prompt stands twice before another unit, and a unit
has no fields. -/
def OutputLine.samples : List OutputLine :=
  [.unit ⟨InfoAction.plain, ["*Error*".toList, "(\\\"\n(agda2-info-action \"x\" nil)".toList]⟩
      "\t".toList (some " ".toList) [],
    .other "Agda2> Agda2> (agda2-info-action \"y\" nil)".toList,
    .unit ⟨InfoAction.andCopy, []⟩ [] none "\r ".toList]

/-- The units of the samples are read. -/
theorem InfoAction.parse_unlines_text_samples :
    (∀ l ∈ OutputLine.samples, l.Valid) ∧
      InfoAction.parse (Text.unlines (OutputLine.samples.map OutputLine.text)) =
        [⟨InfoAction.plain, ["*Error*".toList, "(\\\"\n(agda2-info-action \"x\" nil)".toList]⟩,
          ⟨InfoAction.andCopy, []⟩] := by
  have hv : ∀ l ∈ OutputLine.samples, l.Valid := by decide
  exact ⟨hv, InfoAction.parse_unlines_text OutputLine.samples hv⟩

end AgdaFrontEnd
