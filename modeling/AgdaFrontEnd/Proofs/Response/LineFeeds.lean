import AgdaFrontEnd.Proofs.Response.Streaming
import AgdaFrontEnd.Proofs.Response.TextRoundTrip

/-!
# Units over several lines

A unit may be written with the line feeds of its fields as they are, so that it stands on several
lines.  Then it is read with its fields, but for one thing: the line that opens a unit is stripped,
and with it the blanks before the first line feed.

* `Quoted.writeOpen`, `InfoAction.writeOpen`: a field and a unit with their line feeds as they are.
* `Quoted.Reading.Unbroken`: what is read stays open at every line feed.
* `InfoAction.settle_append_stream`: such lines are read as the one text that they make up.
* `InfoAction.clip`: fields without the blanks before the first line feed.
* `InfoAction.parse_writeOpen`: the unit that is read, and when it is the one that was written.
-/

namespace AgdaFrontEnd

/-! ## Fields -/

namespace Quoted

/-- How a character is written inside a string if only backslashes and quotes are escaped. -/
def escapeOpen (c : Char) : Text := if c = '\\' ∨ c = '"' then ['\\', c] else [c]

/-- A text with every character written so. -/
def escapeAllOpen (t : Text) : Text := t.flatMap escapeOpen

/-- A field between quotes, with its line feeds as they are. -/
def writeOpen (field : Text) : Text := ['"'] ++ escapeAllOpen field ++ ['"']

theorem escapeAllOpen_append (t u : Text) :
    escapeAllOpen (t ++ u) = escapeAllOpen t ++ escapeAllOpen u := List.flatMap_append

theorem escapeOpen_of_ne {c : Char} (hb : c ≠ '\\') (hq : c ≠ '"') : escapeOpen c = [c] :=
  if_neg (by simp [hb, hq])

/-- Blanks are written as they are. -/
theorem escapeAllOpen_of_blank {t : Text} (h : ∀ c ∈ t, isBlank c = true) : escapeAllOpen t = t := by
  induction t with
  | nil => rfl
  | cons c t ih =>
    obtain ⟨hc, ht⟩ := List.forall_mem_cons.1 h
    have hb : c ≠ '\\' := fun hb => absurd (hb ▸ hc) (by decide)
    have hq : c ≠ '"' := fun hq => absurd (hq ▸ hc) (by decide)
    rw [escapeAllOpen, List.flatMap_cons, escapeOpen_of_ne hb hq, ← escapeAllOpen, ih ht]
    rfl

/-- A written character ends in the character. -/
theorem exists_escapeOpen (c : Char) : ∃ r, escapeOpen c = r ++ [c] := by
  unfold escapeOpen
  split
  · exact ⟨['\\'], rfl⟩
  · exact ⟨[], rfl⟩

/-- What has been written of a field without the blanks behind it does not end in a blank: it ends in
the quote, or in the last character that is left. -/
theorem exists_last_of_stripRight (before t : Text) : ∃ r c,
    before ++ '"' :: escapeAllOpen (Text.stripRight t) = r ++ [c] ∧ isBlank c = false := by
  rcases Text.stripRight_eq_nil_or t with h | ⟨r, c, h, hc⟩
  · rw [h]
    exact ⟨before, '"', rfl, by decide⟩
  · obtain ⟨e, he⟩ := exists_escapeOpen c
    rw [h, escapeAllOpen_append]
    exact ⟨before ++ '"' :: (escapeAllOpen r ++ e), c, by simp [escapeAllOpen, he], hc⟩

theorem not_mem_escapeAllOpen {t : Text} (h : '\n' ∉ t) : '\n' ∉ escapeAllOpen t := by
  rw [escapeAllOpen, List.mem_flatMap]
  rintro ⟨c, hc, hn⟩
  unfold escapeOpen at hn
  split at hn
  · rename_i hs
    rcases hs with rfl | rfl <;> exact absurd hn (by decide)
  · exact h (List.mem_singleton.1 hn ▸ hc)

theorem not_mem_writeOpen {t : Text} (h : '\n' ∉ t) : '\n' ∉ writeOpen t := by
  simp [writeOpen, not_mem_escapeAllOpen h]

namespace Reading

variable {fs : List Text} {f : Text} {k : Int}

/-- An escaped character is read as the character. -/
theorem after_escapeOpen (c : Char) :
    (Reading.mk fs (.inside f) k).after (escapeOpen c) = ⟨fs, .inside (f ++ [c]), k⟩ := by
  by_cases hb : c = '\\'
  · subst hb; rfl
  · by_cases hq : c = '"'
    · subst hq; rfl
    · simp [escapeOpen, hb, hq, after, next]

/-- Inside a string an escaped text is read as the text. -/
theorem after_escapeAllOpen (t : Text) :
    (Reading.mk fs (.inside f) k).after (escapeAllOpen t) = ⟨fs, .inside (f ++ t), k⟩ := by
  induction t generalizing f with
  | nil => simp [escapeAllOpen, after]
  | cons c t ih =>
    rw [escapeAllOpen, List.flatMap_cons, after_append, after_escapeOpen]
    simpa [escapeAllOpen] using ih (f := f ++ [c])

/-- A written field is read as one field. -/
theorem after_writeOpen (t : Text) :
    (Reading.mk fs .outside k).after (writeOpen t) = ⟨fs ++ [t], .outside, k⟩ := by
  rw [writeOpen, after_append, after_append]
  exact congrArg (fun s : Reading => s.after ['"']) (after_escapeAllOpen (f := []) t)

/-! ## Line feeds -/

/-- What is read stays open at every line feed of the text. -/
def Unbroken : Reading → Text → Prop
  | _, [] => True
  | s, c :: t => (c = '\n' → ¬ s.IsClosed) ∧ Unbroken (s.next c) t

theorem unbroken_append {s : Reading} {t u : Text} :
    s.Unbroken (t ++ u) ↔ s.Unbroken t ∧ (s.after t).Unbroken u := by
  induction t generalizing s with
  | nil => simp [Unbroken, after]
  | cons c t ih => simp [Unbroken, ih, after, and_assoc]

theorem unbroken_of_not_mem {s : Reading} {t : Text} (h : '\n' ∉ t) : s.Unbroken t := by
  induction t generalizing s with
  | nil => trivial
  | cons c t ih =>
    rw [List.mem_cons, not_or] at h
    exact ⟨fun hc => absurd hc.symm h.1, ih h.2⟩

/-- A string is open in all of a field. -/
theorem unbroken_escapeAllOpen (t : Text) :
    (Reading.mk fs (.inside f) k).Unbroken (escapeAllOpen t) := by
  induction t generalizing f with
  | nil => trivial
  | cons c t ih =>
    rw [escapeAllOpen, List.flatMap_cons, unbroken_append, after_escapeOpen]
    refine ⟨?_, ih⟩
    unfold escapeOpen
    split
    · rename_i hc
      exact unbroken_of_not_mem (by rcases hc with rfl | rfl <;> decide)
    · exact ⟨fun _ h => Quoted.Place.noConfusion h.1, trivial⟩

theorem unbroken_writeOpen (t : Text) : (Reading.mk fs .outside k).Unbroken (writeOpen t) := by
  rw [writeOpen, unbroken_append, unbroken_append]
  exact ⟨⟨unbroken_of_not_mem (by decide), unbroken_escapeAllOpen (f := []) t⟩,
    unbroken_of_not_mem (by decide)⟩

end Reading

end Quoted

namespace InfoAction

open Quoted (Reading)

/-! ## Units -/

/-- The fields of a unit and its end, with their line feeds as they are. -/
def writeFieldsOpen (fields : List Text) : Text :=
  [' '].intercalate (fields.map Quoted.writeOpen) ++ " nil)".toList

/-- A unit with the line feeds of its fields as they are. -/
def writeOpen (u : InfoAction) : Text := '(' :: (u.directive ++ ' ' :: writeFieldsOpen u.fields)

theorem writeFieldsOpen_cons_cons (f g : Text) (fs : List Text) :
    writeFieldsOpen (f :: g :: fs) = Quoted.writeOpen f ++ ' ' :: writeFieldsOpen (g :: fs) := by
  simp [writeFieldsOpen]

/-- The fields of a unit are read, and the unit is closed behind them and not before. -/
theorem reading_writeFieldsOpen (fs fields : List Text) :
    (Reading.mk fs .outside 1).after (writeFieldsOpen fields) = ⟨fs ++ fields, .outside, 0⟩ ∧
      (Reading.mk fs .outside 1).Unbroken (writeFieldsOpen fields) := by
  have hend : ∀ fs, (Reading.mk fs .outside 1).after " nil)".toList = ⟨fs, .outside, 0⟩ := by
    simp [Reading.after, Reading.next]
  have hopen : ∀ fs, (Reading.mk fs .outside 1).Unbroken " nil)".toList :=
    fun fs => Reading.unbroken_of_not_mem (by decide)
  induction fields generalizing fs with
  | nil => exact ⟨by simpa [writeFieldsOpen] using hend fs, hopen fs⟩
  | cons f fields ih =>
    cases fields with
    | nil =>
      rw [writeFieldsOpen, List.map_singleton, List.intercalate_singleton, Reading.after_append,
        Reading.after_writeOpen, Reading.unbroken_append, Reading.after_writeOpen]
      exact ⟨hend _, Reading.unbroken_writeOpen f, hopen _⟩
    | cons g fields =>
      obtain ⟨hread, hunbroken⟩ := ih (fs ++ [f])
      have hblank : (Reading.mk (fs ++ [f]) .outside 1).next ' ' = ⟨fs ++ [f], .outside, 1⟩ := rfl
      rw [writeFieldsOpen_cons_cons, Reading.after_append, Reading.after_writeOpen,
        Reading.after_cons, Reading.unbroken_append, Reading.after_writeOpen, Reading.Unbroken, hblank,
        hread]
      exact ⟨by simp, Reading.unbroken_writeOpen f, fun h => absurd h (by decide), hunbroken⟩

/-! ## Lines of a unit -/

/-- **The lines of a unit are read as the one text that they make up**, if that stays open at every
line feed and is closed at its end. -/
theorem settle_append_stream {s : Reading} {l : Text} {ls : List Text} (d : Text) (after : List Text)
    (hu : s.Unbroken (Text.unlines (l :: ls))) (hc : (s.after (Text.unlines (l :: ls))).IsClosed) :
    (Unfinished.settle ⟨d, s.after l⟩).2 ++
        (stream (Unfinished.settle ⟨d, s.after l⟩).1 (ls ++ after)).2 =
      ⟨d, (s.after (Text.unlines (l :: ls))).fields⟩ :: (stream none after).2 := by
  induction ls generalizing s l with
  | nil =>
    have hl : Text.unlines [l] = l := List.intercalate_singleton
    rw [hl] at hc ⊢
    simp [Unfinished.settle, hc]
  | cons l' ls ih =>
    rw [Text.unlines_cons_cons, Reading.after_append, Reading.after_cons] at hc ⊢
    rw [Text.unlines_cons_cons, Reading.unbroken_append] at hu
    obtain ⟨-, hopen, hrest⟩ := hu
    have hgoes : Unfinished.settle ⟨d, s.after l⟩ = (some ⟨d, s.after l⟩, []) := if_neg (hopen rfl)
    rw [hgoes, List.nil_append, List.cons_append, stream, ← ih hrest hc]
    rfl

/-! ## Fields without the blanks before the first line feed -/

/-- The fields without the blanks before the first line feed in any of them. -/
def clip : List Text → List Text
  | [] => []
  | f :: fs =>
    if '\n' ∈ f then (Text.stripRight (f.upTo '\n') ++ f.dropWhile (· != '\n')) :: fs else f :: clip fs

/-- A blank stands before the first line feed of the fields. -/
def HasBlankBeforeBreak (fields : List Text) : Prop :=
  ∃ pre a c b post, fields = pre ++ (a ++ c :: '\n' :: b) :: post ∧ (∀ f ∈ pre, '\n' ∉ f) ∧
    '\n' ∉ a ∧ isBlank c = true ∧ c ≠ '\n'

theorem exists_break (fields : List Text) : (∀ f ∈ fields, '\n' ∉ f) ∨
    ∃ pre a b post, fields = pre ++ (a ++ '\n' :: b) :: post ∧ (∀ f ∈ pre, '\n' ∉ f) ∧ '\n' ∉ a := by
  induction fields with
  | nil => exact .inl fun f hf => absurd hf List.not_mem_nil
  | cons f fs ih =>
    by_cases hf : '\n' ∈ f
    · obtain ⟨a, b, rfl, ha⟩ := List.eq_append_cons_of_mem hf
      exact .inr ⟨[], a, b, fs, rfl, fun g hg => absurd hg List.not_mem_nil, ha⟩
    · rcases ih with ih | ⟨pre, a, b, post, rfl, hpre, ha⟩
      · exact .inl (List.forall_mem_cons.2 ⟨hf, ih⟩)
      · exact .inr ⟨f :: pre, a, b, post, rfl, List.forall_mem_cons.2 ⟨hf, hpre⟩, ha⟩

theorem clip_of_not_mem {fields : List Text} (h : ∀ f ∈ fields, '\n' ∉ f) : clip fields = fields := by
  induction fields with
  | nil => rfl
  | cons f fs ih =>
    obtain ⟨hf, hfs⟩ := List.forall_mem_cons.1 h
    rw [clip, if_neg hf, ih hfs]

theorem clip_append {pre post : List Text} {a : Text} (hpre : ∀ f ∈ pre, '\n' ∉ f) (ha : '\n' ∉ a)
    (b : Text) : clip (pre ++ (a ++ '\n' :: b) :: post) =
      pre ++ (Text.stripRight a ++ '\n' :: b) :: post := by
  induction pre with
  | nil =>
    have hne : ∀ c ∈ a, (c != '\n') = true := fun c hc => bne_iff_ne.2 fun h => ha (h ▸ hc)
    simp [clip, Text.upTo, List.takeWhile_append_of_pos hne, List.dropWhile_append_of_pos hne]
  | cons f fs ih =>
    obtain ⟨hf, hfs⟩ := List.forall_mem_cons.1 hpre
    rw [List.cons_append, clip, if_neg hf, ih hfs, List.cons_append]

/-- The fields are kept exactly if no blank stands before their first line feed. -/
theorem clip_eq_self_iff (fields : List Text) : clip fields = fields ↔ ¬ HasBlankBeforeBreak fields := by
  constructor
  · rintro h ⟨pre, a, c, b, post, rfl, hpre, ha, hc, hne⟩
    have hac : '\n' ∉ a ++ [c] := by simpa [ha] using hne.symm
    have hfield : a ++ c :: '\n' :: b = (a ++ [c]) ++ '\n' :: b := by simp
    rw [hfield, clip_append hpre hac, List.append_right_inj] at h
    have hstrip := List.append_cancel_right (List.cons.inj h).1
    rw [Text.stripRight_eq_self_iff.1 hstrip a c rfl] at hc
    cases hc
  · intro h
    rcases exists_break fields with hno | ⟨pre, a, b, post, rfl, hpre, ha⟩
    · exact clip_of_not_mem hno
    · have hstrip : Text.stripRight a = a := by
        refine Text.stripRight_eq_self_iff.2 fun r c hr => ?_
        subst hr
        rw [List.mem_append, List.mem_singleton, not_or] at ha
        refine Bool.eq_false_iff.2 fun hc => h ⟨pre, r, c, b, post, by simp, hpre, ha.1, hc, Ne.symm ha.2⟩
      rw [clip_append hpre ha, hstrip]

/-! ## The line that opens a unit -/

/-- The payload of a line is what stands on it without the blanks behind it. -/
theorem payload_append_blanks {t m : Text} (ht : Text.IsSolid t) (hp : t.dropPrefix? prompt = none)
    (hm : Text.IsMargin m) : payload (t ++ m) = t := by
  have hb : Text.IsMargin [] := by decide
  have hgap : ∀ gap ∈ (none : Option Text), Text.IsMargin gap := fun _ h => nomatch h
  exact Text.unprompt_of_margins ⟨'A', _, rfl, by decide⟩ ht hp hb hgap hm

/-- The line opens a unit with this text behind its directive, whatever blanks stand behind it. -/
theorem opening?_writeOpen {d t m : Text} (hd : IsDirective d) (hm : Text.IsMargin m)
    (ht : ∃ r c, t = r ++ [c] ∧ isBlank c = false) :
    opening? ('(' :: (d ++ ' ' :: (t ++ m))) = some (d, t) := by
  obtain ⟨r, c, rfl, hc⟩ := ht
  have hsolid : Text.IsSolid ('(' :: (d ++ ' ' :: (r ++ [c]))) :=
    ⟨⟨'(', _, rfl, by decide⟩, ⟨'(' :: (d ++ ' ' :: r), c, by simp, hc⟩⟩
  have hp : Text.dropPrefix? ('(' :: (d ++ ' ' :: (r ++ [c]))) prompt = none := by
    simp [prompt, Text.dropPrefix?]
  refine opening?_eq_some_iff.2 ⟨hd, ' ', by decide, ?_⟩
  have hpay := payload_append_blanks hsolid hp hm
  simpa using hpay

/-- What is written before and behind a field does not depend on the field. -/
theorem exists_frame {pre : List Text} (post : List Text) (h : ∀ f ∈ pre, '\n' ∉ f) :
    ∃ before after : Text, '\n' ∉ before ∧
      ∀ f, writeFieldsOpen (pre ++ f :: post) = before ++ (Quoted.writeOpen f ++ after) := by
  induction pre with
  | nil =>
    cases post with
    | nil => exact ⟨[], " nil)".toList, by simp, fun f => by simp [writeFieldsOpen]⟩
    | cons g post =>
      exact ⟨[], ' ' :: writeFieldsOpen (g :: post), by simp, fun f => writeFieldsOpen_cons_cons f g post⟩
  | cons g pre ih =>
    obtain ⟨hg, hpre⟩ := List.forall_mem_cons.1 h
    obtain ⟨before, after, hb, heq⟩ := ih hpre
    refine ⟨Quoted.writeOpen g ++ ' ' :: before, after, ?_, fun f => ?_⟩
    · simp [Quoted.not_mem_writeOpen hg, hb]
    · cases pre <;> simp [writeFieldsOpen_cons_cons, ← heq]

theorem not_mem_writeFieldsOpen : ∀ {fields : List Text}, (∀ f ∈ fields, '\n' ∉ f) →
    '\n' ∉ writeFieldsOpen fields
  | [], _ => by decide
  | [f], h => by
    have hf := Quoted.not_mem_writeOpen (h f List.mem_cons_self)
    simpa [writeFieldsOpen] using hf
  | f :: g :: fs, h => by
    have hf := Quoted.not_mem_writeOpen (h f List.mem_cons_self)
    have hfs := not_mem_writeFieldsOpen (List.forall_mem_cons.1 h).2
    rw [writeFieldsOpen_cons_cons]
    simp [hf, hfs]

/-- The first line of a written unit opens it.  But for the blanks before the first line feed its
lines make up the fields as they were written. -/
theorem exists_lines_writeOpen {u : InfoAction} (hd : IsDirective u.directive) :
    ∃ l r ls, Text.lines u.writeOpen = l :: ls ∧ opening? l = some (u.directive, r) ∧
      Text.unlines (r :: ls) = writeFieldsOpen (clip u.fields) := by
  obtain ⟨d, fields⟩ := u
  have hdir : '\n' ∉ d := by rcases hd with rfl | rfl <;> decide
  rcases exists_break fields with hno | ⟨pre, a, b, post, rfl, hpre, ha⟩
  · have hline : '\n' ∉ writeOpen ⟨d, fields⟩ := by
      simp [writeOpen, hdir, not_mem_writeFieldsOpen hno]
    have hopen := opening?_writeOpen hd (m := []) (by decide)
      ⟨[' '].intercalate (fields.map Quoted.writeOpen) ++ " nil".toList, ')', rfl, by decide⟩
    refine ⟨_, writeFieldsOpen fields, [], List.splitOn_eq_singleton hline, ?_, ?_⟩
    · simpa [writeOpen, writeFieldsOpen] using hopen
    · rw [clip_of_not_mem hno]
      exact List.intercalate_singleton
  · obtain ⟨before, after, hb, hframe⟩ := exists_frame post hpre
    obtain ⟨m, hm, hblank⟩ := Text.exists_stripRight_append a
    have hsolid := Quoted.exists_last_of_stripRight before a
    rw [clip_append hpre ha, hframe]
    generalize Text.stripRight a = x at hm hsolid ⊢
    subst hm
    rw [List.mem_append, not_or] at ha
    have hmargin : Text.IsMargin m := fun c hc => ⟨hblank c hc, fun hn => ha.2 (hn ▸ hc)⟩
    have hopen := opening?_writeOpen hd hmargin hsolid
    have htext : writeOpen ⟨d, pre ++ ((x ++ m) ++ '\n' :: b) :: post⟩ =
        '(' :: (d ++ ' ' :: ((before ++ '"' :: Quoted.escapeAllOpen x) ++ m)) ++
          '\n' :: (Quoted.escapeAllOpen b ++ '"' :: after) := by
      rw [writeOpen, hframe, Quoted.writeOpen, Quoted.escapeAllOpen_append, Quoted.escapeAllOpen_append,
        Quoted.escapeAllOpen_of_blank hblank]
      simp [Quoted.escapeAllOpen, Quoted.escapeOpen]
    have hfirst : '\n' ∉ '(' :: (d ++ ' ' :: ((before ++ '"' :: Quoted.escapeAllOpen x) ++ m)) := by
      simp [hdir, hb, Quoted.not_mem_escapeAllOpen ha.1, ha.2]
    refine ⟨_, _, Text.lines (Quoted.escapeAllOpen b ++ '"' :: after), ?_, hopen, ?_⟩
    · rw [htext]
      exact List.splitOn_append_cons_self_of_not_mem hfirst _
    · rw [Text.unlines_cons_lines, Quoted.writeOpen, Quoted.escapeAllOpen_append]
      simp [Quoted.escapeAllOpen, Quoted.escapeOpen]

/-! ## Whole outputs -/

theorem stream_of_not_opens {ls : List Text} (h : ∀ l ∈ ls, ¬ Opens l) : stream none ls = (none, []) := by
  induction ls with
  | nil => rfl
  | cons l ls ih =>
    obtain ⟨hl, hls⟩ := List.forall_mem_cons.1 h
    have hstep : step none l = (none, []) := by simp [step, Unfinished.read?, opening?_eq_none hl]
    rw [stream, hstep, ih hls]
    rfl

/-- The lines of a written unit are read as the unit without the blanks before its first line feed. -/
theorem stream_lines_writeOpen {u : InfoAction} (hd : IsDirective u.directive) (after : List Text) :
    (stream none (Text.lines u.writeOpen ++ after)).2 =
      ⟨u.directive, clip u.fields⟩ :: (stream none after).2 := by
  obtain ⟨l, r, ls, hlines, hopen, htext⟩ := exists_lines_writeOpen hd
  have hparen : Reading.start.next '(' = ⟨[], .outside, 1⟩ := rfl
  obtain ⟨hread, hunbroken⟩ := reading_writeFieldsOpen [] (clip u.fields)
  rw [← htext] at hread hunbroken
  have hclosed : ((Reading.mk [] .outside 1).after (Text.unlines (r :: ls))).IsClosed := by
    rw [hread]
    exact ⟨rfl, Int.le_refl 0⟩
  have hstep : step none l = Unfinished.settle ⟨u.directive, (Reading.mk [] .outside 1).after r⟩ := by
    simp [step, Unfinished.read?, hopen, Reading.after_cons, hparen]
  rw [hlines, List.cons_append, stream, hstep, settle_append_stream u.directive after hunbroken hclosed,
    hread, List.nil_append]

/-- **A unit over several lines** is read as it was written, but without the blanks before the first
line feed of its fields, whatever lines that open no unit stand around it.  So it is read as it is
exactly if no blank stands there. -/
theorem parse_writeOpen {u : InfoAction} {before after : List Text} (hd : IsDirective u.directive)
    (ho : ∀ l ∈ before ++ after, '\n' ∉ l ∧ ¬ Opens l) :
    parse (Text.unlines (before ++ u.writeOpen :: after)) = [⟨u.directive, clip u.fields⟩] ∧
      (parse (Text.unlines (before ++ u.writeOpen :: after)) = [u] ↔ ¬ HasBlankBeforeBreak u.fields) := by
  have hbefore : ∀ l ∈ before, '\n' ∉ l ∧ ¬ Opens l := fun l hl => ho l (List.mem_append_left _ hl)
  have hafter : ∀ l ∈ after, '\n' ∉ l ∧ ¬ Opens l := fun l hl => ho l (List.mem_append_right _ hl)
  have hparse : parse (Text.unlines (before ++ u.writeOpen :: after)) =
      [⟨u.directive, clip u.fields⟩] := by
    rw [parse, Text.lines_unlines_flatMap (by simp), List.flatMap_append, List.flatMap_cons,
      Text.flatMap_lines fun l hl => (hbefore l hl).1, Text.flatMap_lines fun l hl => (hafter l hl).1,
      parseLines_eq_stream, Option.map_none, stream_append,
      stream_of_not_opens fun l hl => (hbefore l hl).2, stream_lines_writeOpen hd,
      stream_of_not_opens fun l hl => (hafter l hl).2]
    rfl
  refine ⟨hparse, ?_⟩
  rw [hparse, ← clip_eq_self_iff]
  obtain ⟨d, fields⟩ := u
  simp

/-- A unit whose second field has blanks around its line feeds, a quote, a parenthesis and a
backslash. -/
def spread : InfoAction := ⟨plain, ["*Error*".toList, "a \t\n b \n\"(c\\".toList]⟩

/-- The unit is read between other lines; the blanks before its first line feed are gone, those before
the second one are not. -/
theorem parse_writeOpen_sample :
    IsDirective spread.directive ∧
      (∀ l ∈ ["Agda2> ".toList] ++ ["(agda2-status-action \"\")".toList], '\n' ∉ l ∧ ¬ Opens l) ∧
      parse (Text.unlines (["Agda2> ".toList] ++ spread.writeOpen ::
        ["(agda2-status-action \"\")".toList])) =
        [⟨plain, ["*Error*".toList, "a\n b \n\"(c\\".toList]⟩] := by
  have hd : IsDirective spread.directive := .inl rfl
  have ho : ∀ l ∈ ["Agda2> ".toList] ++ ["(agda2-status-action \"\")".toList], '\n' ∉ l ∧ ¬ Opens l := by
    decide
  have hclip : clip spread.fields = ["*Error*".toList, "a\n b \n\"(c\\".toList] := by decide
  refine ⟨hd, ho, ?_⟩
  rw [(parse_writeOpen hd ho).1, hclip]
  rfl

/-- **Blanks before a line feed can be lost**: not every unit is read as it was written. -/
theorem blank_before_break_lost :
    ¬ ∀ u : InfoAction, IsDirective u.directive → parse u.writeOpen = [u] := by
  intro h
  have hread := h ⟨plain, ["a \nb".toList]⟩ (.inl rfl)
  revert hread
  decide +kernel

end InfoAction

end AgdaFrontEnd
