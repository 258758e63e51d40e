import AgdaFrontEnd.Text.Blank

/-!
# Texts between margins

* `Text.IsMargin`: blanks that stand beside a text on its line.
* `Text.strip_of_margins`: a text that is solid at both ends is found again between margins.
* `Text.unprompt_of_margins`: so it is behind a prompt.
* `Text.strip_isInfix`: what is left of a text stands in it.
* `Text.exists_stripRight_append`, `Text.stripRight_eq_nil_or`: what is stripped from the end of a text,
  and what is left.
* `Text.lines_unlines`: lines without line feeds are found again in the text of all.
-/

namespace AgdaFrontEnd.Text

/-- The text consists of blanks, none of which ends a line. -/
def IsMargin (t : Text) : Prop := ∀ c ∈ t, isBlank c = true ∧ c ≠ '\n'

instance (t : Text) : Decidable (IsMargin t) := List.decidableBAll _ t

theorem IsMargin.not_mem {t : Text} (h : IsMargin t) : '\n' ∉ t := fun hm => (h _ hm).2 rfl

/-- The text has a first character and a last one, and neither is blank. -/
structure IsSolid (t : Text) : Prop where
  head : ∃ c r, t = c :: r ∧ isBlank c = false
  last : ∃ r c, t = r ++ [c] ∧ isBlank c = false

theorem stripLeft_append {m : Text} (h : ∀ c ∈ m, isBlank c = true) (t : Text) :
    stripLeft (m ++ t) = stripLeft t := List.dropWhile_append_of_pos h

theorem stripRight_append {m : Text} (h : ∀ c ∈ m, isBlank c = true) (t : Text) :
    stripRight (t ++ m) = stripRight t := by
  unfold stripRight
  rw [List.reverse_append, List.dropWhile_append_of_pos (by simpa using h)]

theorem IsSolid.stripLeft_append {t : Text} (h : IsSolid t) (r : Text) :
    stripLeft (t ++ r) = t ++ r := by
  obtain ⟨c, s, rfl, hc⟩ := h.head
  simp [stripLeft, hc]

theorem IsSolid.stripRight_eq {t : Text} (h : IsSolid t) : stripRight t = t := by
  obtain ⟨r, c, rfl, hc⟩ := h.last
  simp [stripRight, hc]

/-- **A solid text is found again between margins.** -/
theorem strip_of_margins {a t b : Text} (ha : ∀ c ∈ a, isBlank c = true) (ht : IsSolid t)
    (hb : ∀ c ∈ b, isBlank c = true) : strip (a ++ (t ++ b)) = t := by
  unfold strip
  rw [stripLeft_append ha, ht.stripLeft_append, stripRight_append hb, ht.stripRight_eq]

/-- What is left between the blanks of a text stands in it. -/
theorem strip_isInfix (t : Text) : t.strip <:+: t := by
  have hleft : stripLeft t <:+ t := List.dropWhile_suffix isBlank
  have hright : strip t <+: stripLeft t := by
    rw [strip, stripRight, ← List.reverse_suffix, List.reverse_reverse]
    exact List.dropWhile_suffix isBlank
  exact hright.isInfix.trans hleft.isInfix

/-- What is stripped from the end of a text is blank. -/
theorem exists_stripRight_append (t : Text) :
    ∃ m, t = stripRight t ++ m ∧ ∀ c ∈ m, isBlank c = true := by
  refine ⟨(t.reverse.takeWhile isBlank).reverse, ?_, fun c hc => ?_⟩
  · rw [stripRight, ← List.reverse_append, List.takeWhile_append_dropWhile, List.reverse_reverse]
  · exact List.all_eq_true.1 List.all_takeWhile c (List.mem_reverse.1 hc)

/-- What is left ends in no blank. -/
theorem stripRight_eq_nil_or (t : Text) :
    stripRight t = [] ∨ ∃ r c, stripRight t = r ++ [c] ∧ isBlank c = false := by
  unfold stripRight
  cases h : t.reverse.dropWhile isBlank with
  | nil => exact .inl rfl
  | cons c r =>
    have hc := List.head_dropWhile_not isBlank (l := t.reverse) (by rw [h]; simp)
    simp only [h, List.head_cons] at hc
    exact .inr ⟨r.reverse, c, List.reverse_cons, hc⟩

theorem stripRight_eq_self_iff {t : Text} :
    stripRight t = t ↔ ∀ r c, t = r ++ [c] → isBlank c = false := by
  constructor
  · rintro h r c rfl
    refine Bool.eq_false_iff.2 fun hc => ?_
    rw [stripRight_append (by simpa using hc)] at h
    obtain ⟨m, hm, -⟩ := exists_stripRight_append r
    have hlong := congrArg List.length h
    have hshort := congrArg List.length hm
    simp only [List.length_append, List.length_singleton] at hlong hshort
    omega
  · intro h
    rcases List.eq_nil_or_concat t with rfl | ⟨r, c, rfl⟩
    · rfl
    · simp [stripRight, h r c List.concat_eq_append]

/-- What stands between the margin of a line and its text: nothing, or a prompt with a blank and a
margin of its own. -/
def lead (prompt : Text) : Option Text → Text
  | none => []
  | some gap => prompt ++ ' ' :: gap

theorem IsSolid.lead_append {prompt t : Text} (hp : ∃ c r, prompt = c :: r ∧ isBlank c = false)
    (ht : IsSolid t) (prompted : Option Text) : IsSolid (lead prompt prompted ++ t) where
  head := by
    cases prompted with
    | none => exact ht.head
    | some gap =>
      obtain ⟨c, r, rfl, hc⟩ := hp
      exact ⟨c, _, rfl, hc⟩
  last := by
    obtain ⟨r, c, hr, hc⟩ := ht.last
    exact ⟨lead prompt prompted ++ r, c, by rw [hr, List.append_assoc], hc⟩

theorem not_mem_lead {prompt : Text} {prompted : Option Text} (hp : '\n' ∉ prompt)
    (hgap : ∀ gap ∈ prompted, IsMargin gap) : '\n' ∉ lead prompt prompted := by
  cases prompted with
  | none => exact List.not_mem_nil
  | some gap => simp [lead, hp, (hgap gap rfl).not_mem]

/-- **A solid text is found again between margins and behind a prompt**, if it does not start with
the prompt itself. -/
theorem unprompt_of_margins {prompt before after t : Text} {prompted : Option Text}
    (hp : ∃ c r, prompt = c :: r ∧ isBlank c = false) (ht : IsSolid t)
    (hne : t.dropPrefix? prompt = none) (hb : IsMargin before) (hgap : ∀ gap ∈ prompted, IsMargin gap)
    (ha : IsMargin after) :
    (match (strip (before ++ ((lead prompt prompted ++ t) ++ after))).dropPrefix? prompt with
      | some r => r.strip
      | none => strip (before ++ ((lead prompt prompted ++ t) ++ after))) = t := by
  rw [strip_of_margins (fun c hc => (hb c hc).1) (ht.lead_append hp prompted) fun c hc => (ha c hc).1]
  cases prompted with
  | none =>
    rw [lead, List.nil_append, hne]
  | some gap =>
    have hblank : ∀ c ∈ ' ' :: gap, isBlank c = true := by
      intro c hc
      rcases List.mem_cons.1 hc with rfl | hc
      · decide
      · exact (hgap gap rfl c hc).1
    have hstrip := strip_of_margins hblank ht (b := []) (by simp)
    rw [List.append_nil] at hstrip
    rw [lead, List.append_assoc, dropPrefix?_append]
    exact hstrip

/-- A text that starts with no blank keeps its first character. -/
theorem strip_cons {c : Char} (hc : isBlank c = false) (t : Text) : ∃ r, strip (c :: t) = c :: r := by
  have hleft : stripLeft (c :: t) = c :: t := by simp [stripLeft, hc]
  unfold strip stripRight
  rw [hleft, List.reverse_cons]
  cases ht : t.reverse.dropWhile isBlank with
  | nil => exact ⟨[], by rw [List.dropWhile_append, ht]; simp [hc]⟩
  | cons d s => exact ⟨(d :: s).reverse, by rw [List.dropWhile_append, ht]; simp⟩

theorem unlines_cons_cons (l l' : Text) (ls : List Text) :
    unlines (l :: l' :: ls) = l ++ '\n' :: unlines (l' :: ls) := by
  simp [unlines, List.intercalate_cons_cons]

theorem unlines_cons_lines (l t : Text) : unlines (l :: lines t) = l ++ '\n' :: t := by
  have hne : lines t ≠ [] := List.splitOn_ne_nil '\n' t
  rw [unlines, List.intercalate_cons_of_ne_nil hne, ← unlines, unlines_lines]
  simp

theorem flatMap_lines {ls : List Text} (h : ∀ l ∈ ls, '\n' ∉ l) : ls.flatMap lines = ls := by
  induction ls with
  | nil => rfl
  | cons l ls ih =>
    obtain ⟨hl, hls⟩ := List.forall_mem_cons.1 h
    rw [List.flatMap_cons, ih hls, lines, List.splitOn_eq_singleton hl, List.singleton_append]

/-- The lines of texts that are put together are the lines of each. -/
theorem lines_unlines_flatMap {ts : List Text} (hne : ts ≠ []) :
    lines (unlines ts) = ts.flatMap lines := by
  induction ts with
  | nil => exact absurd rfl hne
  | cons t ts ih =>
    cases ts with
    | nil => simp [unlines]
    | cons t' ts =>
      have ih := ih (List.cons_ne_nil _ _)
      rw [unlines_cons_cons, lines, List.splitOn_append_cons_self, List.flatMap_cons]
      exact congrArg (lines t ++ ·) ih

theorem lines_unlines {ls : List Text} (hne : ls ≠ []) (h : ∀ l ∈ ls, '\n' ∉ l) :
    lines (unlines ls) = ls := List.splitOn_intercalate '\n' h hne

end AgdaFrontEnd.Text
