import AgdaFrontEnd.Proofs.Render.Terminal
import AgdaFrontEnd.Proofs.Text.Occurrence

/-!
# What stripping leaves

Stripping a text takes its escape sequences away in one pass from left to right.  Where a sequence
stands in the midst of the characters of another one, taking it away brings these together, and the
other one is left.

* `Text.IsSequence`, `Text.HasSequence`: escape sequences, and texts that hold one.
* `Text.strip_induction`: a text is stripped of the sequence at its start, or keeps its first
  character.
* `Text.Scattered`: a text with escape sequences between its characters.
* `Text.HasBrokenSequence`: a text that holds a sequence with others between its characters.
* `Text.hasSequence_stripStyles_iff`: just such texts hold a sequence once they are stripped.
* `Text.stripStyles_eq_self_iff`: stripping changes just the texts that hold a sequence.
-/

namespace AgdaFrontEnd.Text

/-! ## Escape sequences -/

/-- An escape sequence: the escape character, an opening bracket, parameters and a letter. -/
def IsSequence (s : Text) : Prop :=
  ∃ parameters letter, (∀ c ∈ parameters, isParameter c = true) ∧ isFinal letter = true ∧
    s = '\x1b' :: '[' :: (parameters ++ [letter])

/-- An escape sequence stands somewhere in the text. -/
def HasSequence (t : Text) : Prop := ∃ s, IsSequence s ∧ s <:+: t

theorem HasSequence.of_infix {t u : Text} (h : HasSequence t) (hi : t <:+: u) : HasSequence u := by
  obtain ⟨s, hs, ht⟩ := h
  exact ⟨s, hs, ht.trans hi⟩

theorem ne_escape_of_isFinal {c : Char} (h : isFinal c = true) : c ≠ '\x1b' := by
  rintro rfl
  exact absurd h (by decide)

theorem ne_escape_of_isParameter {c : Char} (h : isParameter c = true) : c ≠ '\x1b' := by
  rintro rfl
  exact absurd h (by decide)

theorem not_isFinal_of_isParameter {c : Char} (h : isParameter c = true) : isFinal c = false := by
  cases hc : isFinal c with
  | false => rfl
  | true => exact absurd (h.symm.trans (not_isParameter_of_isFinal hc)) (by decide)

/-- A sequence starts with the escape character, and this does not stand in it again. -/
theorem IsSequence.exists_cons {s : Text} (h : IsSequence s) :
    ∃ r, s = '\x1b' :: r ∧ '\x1b' ∉ r := by
  obtain ⟨ps, l, hps, hl, rfl⟩ := h
  refine ⟨_, rfl, ?_⟩
  simp only [List.mem_cons, List.mem_append, List.not_mem_nil, or_false, not_or]
  exact ⟨by decide, fun hm => ne_escape_of_isParameter (hps _ hm) rfl,
    (ne_escape_of_isFinal hl).symm⟩

theorem IsSequence.length_pos {s : Text} (h : IsSequence s) : 0 < s.length := by
  obtain ⟨r, rfl, -⟩ := h.exists_cons
  exact Nat.succ_pos _

/-- A text starts with a sequence of some length if the pattern of sequences fits there. -/
theorem sequenceLength?_eq_some_iff {t : Text} {n : Nat} :
    sequenceLength? t = some n ↔ ∃ s u, IsSequence s ∧ s.length = n ∧ t = s ++ u := by
  constructor
  · intro h
    unfold sequenceLength? at h
    split at h
    · rename_i r
      split at h
      · rename_i c u hdrop
        split at h
        · rename_i hc
          cases h
          have hall : ∀ c ∈ r.takeWhile isParameter, isParameter c = true :=
            List.all_eq_true.1 List.all_takeWhile
          have hr := List.takeWhile_append_dropWhile (p := isParameter) (l := r)
          rw [hdrop] at hr
          exact ⟨_, u, ⟨r.takeWhile isParameter, c, hall, hc, rfl⟩, by simp,
            by simpa using hr.symm⟩
        · cases h
      · cases h
    · cases h
  · rintro ⟨s, u, ⟨ps, l, hps, hl, rfl⟩, rfl, rfl⟩
    have h := sequenceLength?_sequence hps hl u
    simpa using h

theorem IsSequence.sequenceLength? {s : Text} (h : IsSequence s) (u : Text) :
    sequenceLength? (s ++ u) = some s.length := sequenceLength?_eq_some_iff.2 ⟨s, u, h, rfl, rfl⟩

theorem sequenceLength?_eq_none_iff {t : Text} :
    sequenceLength? t = none ↔ ∀ s, IsSequence s → ¬ s <+: t := by
  constructor
  · rintro h s hs ⟨u, rfl⟩
    rw [hs.sequenceLength?] at h
    cases h
  · intro h
    refine Option.eq_none_iff_forall_ne_some.2 fun n hn => ?_
    obtain ⟨s, u, hs, -, rfl⟩ := sequenceLength?_eq_some_iff.1 hn
    exact h s hs (List.prefix_append s u)

/-- No sequence reaches over an escape character. -/
theorem sequenceLength?_append_escape {c : Char} {u : Text} (h : sequenceLength? (c :: u) = none)
    (r : Text) : sequenceLength? (c :: (u ++ '\x1b' :: r)) = none := by
  rw [sequenceLength?_eq_none_iff] at h ⊢
  rintro s hs ⟨v, htext⟩
  obtain ⟨y, rfl, hno⟩ := hs.exists_cons
  obtain ⟨rfl, htail⟩ := List.cons.inj htext
  exact h _ hs ((List.prefix_cons_inj _).2 (prefix_of_append_cons hno htail))

/-! ## Stripping step by step -/

theorem stripFrom_length (t u : Text) : stripFrom t.length (t ++ u) = stripStyles u := by
  induction t with
  | nil => rfl
  | cons c t ih => exact ih

theorem stripStyles_sequence {s : Text} (hs : IsSequence s) (u : Text) :
    (s ++ u).stripStyles = u.stripStyles := by
  obtain ⟨r, rfl, -⟩ := hs.exists_cons
  rw [stripStyles, List.cons_append, stripFrom, ← List.cons_append, hs.sequenceLength?]
  exact stripFrom_length r u

theorem stripStyles_kept {c : Char} {r : Text} (h : sequenceLength? (c :: r) = none) :
    stripStyles (c :: r) = c :: r.stripStyles := by
  rw [stripStyles, stripFrom, h]
  rfl

theorem stripStyles_flatten {ss : List Text} (h : ∀ s ∈ ss, IsSequence s) (u : Text) :
    stripStyles (ss.flatten ++ u) = u.stripStyles := by
  induction ss with
  | nil => rfl
  | cons s ss ih =>
    obtain ⟨hs, hss⟩ := List.forall_mem_cons.1 h
    rw [List.flatten_cons, List.append_assoc, stripStyles_sequence hs, ih hss]

/-- A text is empty, or starts with a sequence, or keeps its first character. -/
@[elab_as_elim]
theorem strip_induction {P : Text → Prop} (nil : P [])
    (sequence : ∀ s r, IsSequence s → P r → P (s ++ r))
    (kept : ∀ c r, sequenceLength? (c :: r) = none → P r → P (c :: r)) (t : Text) : P t := by
  generalize hn : t.length = n
  induction n using Nat.strongRecOn generalizing t with
  | ind n ih =>
    subst hn
    cases t with
    | nil => exact nil
    | cons c r =>
      cases h : sequenceLength? (c :: r) with
      | none => exact kept c r h (ih r.length (Nat.lt_succ_self _) r rfl)
      | some n =>
        obtain ⟨s, u, hs, -, htext⟩ := sequenceLength?_eq_some_iff.1 h
        have hpos := hs.length_pos
        rw [htext] at ih ⊢
        refine sequence s u hs (ih u.length ?_ u rfl)
        rw [List.length_append]
        omega

/-- A text may be cut before an escape character: no sequence reaches over it. -/
theorem stripStyles_append_escape (t r : Text) :
    stripStyles (t ++ '\x1b' :: r) = t.stripStyles ++ stripStyles ('\x1b' :: r) := by
  induction t using strip_induction with
  | nil => rfl
  | sequence s u hs ih =>
    rw [List.append_assoc, stripStyles_sequence hs, stripStyles_sequence hs, ih]
  | kept c u hc ih =>
    rw [List.cons_append, stripStyles_kept (sequenceLength?_append_escape hc r), stripStyles_kept hc,
      ih, List.cons_append]

theorem length_stripStyles_le (t : Text) : t.stripStyles.length ≤ t.length := by
  induction t using strip_induction with
  | nil => exact Nat.le_refl _
  | sequence s r hs ih =>
    rw [stripStyles_sequence hs, List.length_append]
    omega
  | kept c r hc ih =>
    rw [stripStyles_kept hc, List.length_cons, List.length_cons]
    omega

/-- Stripping changes just the texts that hold a sequence. -/
theorem stripStyles_eq_self_iff {t : Text} : t.stripStyles = t ↔ ¬ t.HasSequence := by
  constructor
  · rintro h ⟨s, hs, a, b, rfl⟩
    have hstrip : stripStyles (a ++ s ++ b) = stripStyles a ++ stripStyles b := by
      obtain ⟨r, rfl, -⟩ := hs.exists_cons
      rw [List.append_assoc, List.cons_append, stripStyles_append_escape, ← List.cons_append,
        stripStyles_sequence hs]
    have hlength := congrArg List.length (h.symm.trans hstrip)
    have ha := length_stripStyles_le a
    have hb := length_stripStyles_le b
    have hpos := hs.length_pos
    simp only [List.length_append] at hlength
    omega
  · intro h
    induction t using strip_induction with
    | nil => rfl
    | sequence s r hs ih => exact absurd ⟨s, hs, List.prefix_append s r |>.isInfix⟩ h
    | kept c r hc ih =>
      rw [stripStyles_kept hc, ih fun hr => h (hr.of_infix (List.suffix_cons c r).isInfix)]

instance (t : Text) : Decidable t.HasSequence :=
  decidable_of_iff (¬ t.stripStyles = t) (by rw [stripStyles_eq_self_iff, Classical.not_not])

/-- What stands before a sequence has no part in it if there is no escape character in it. -/
theorem hasSequence_append_of_not_mem {a : Text} (ha : '\x1b' ∉ a) (t : Text) :
    HasSequence (a ++ t) ↔ t.HasSequence := by
  refine ⟨?_, fun h => h.of_infix (List.suffix_append a t).isInfix⟩
  rintro ⟨s, hs, p, q, htext⟩
  obtain ⟨r, rfl, -⟩ := hs.exists_cons
  rw [List.append_assoc] at htext
  rcases List.append_eq_append_iff.1 htext with ⟨_ | ⟨d, x⟩, rfl, hx⟩ | ⟨x, -, hx⟩
  · exact ⟨_, hs, [], q, hx⟩
  · rw [← (List.cons.inj hx).1] at ha
    exact absurd (by simp) ha
  · exact ⟨_, hs, x, q, by rw [hx, List.append_assoc]⟩

/-! ## Broken sequences -/

/-- `Scattered s w`: the text `w` has the characters of `s` in their order, and nothing but escape
sequences before each of them. -/
inductive Scattered : Text → Text → Prop
  | nil : Scattered [] []
  | cons {ss : List Text} {c : Char} {s w : Text} (hss : ∀ x ∈ ss, IsSequence x)
    (h : Scattered s w) : Scattered (c :: s) (ss.flatten ++ c :: w)

/-- The characters of a sequence stand somewhere in the text, with other sequences between them. -/
def HasBrokenSequence (t : Text) : Prop :=
  ∃ s w, IsSequence ('\x1b' :: s) ∧ Scattered s w ∧ w ≠ s ∧ '\x1b' :: w <:+: t

section Scattered

variable {s w t : Text}

/-- Before the first character that is kept there is nothing but sequences. -/
theorem exists_kept {c : Char} {b : Text} (h : t.stripStyles = c :: b) :
    ∃ (ss : List Text) (r : Text), (∀ x ∈ ss, IsSequence x) ∧ t = ss.flatten ++ c :: r ∧
      sequenceLength? (c :: r) = none ∧ r.stripStyles = b := by
  induction t using strip_induction with
  | nil => cases h
  | sequence x u hx ih =>
    rw [stripStyles_sequence hx] at h
    obtain ⟨ss, r, hss, rfl, hr⟩ := ih h
    refine ⟨x :: ss, r, List.forall_mem_cons.2 ⟨hx, hss⟩, ?_, hr⟩
    rw [List.flatten_cons, List.append_assoc]
  | kept d u hd ih =>
    rw [stripStyles_kept hd] at h
    cases h
    exact ⟨[], u, fun _ h => absurd h List.not_mem_nil, rfl, hd, rfl⟩

/-- What stripping leaves stands scattered in the text. -/
theorem exists_scattered {b : Text} (h : t.stripStyles = s ++ b) :
    ∃ w r, Scattered s w ∧ t = w ++ r ∧ r.stripStyles = b := by
  induction s generalizing t with
  | nil => exact ⟨[], t, .nil, rfl, h⟩
  | cons c s ih =>
    obtain ⟨ss, u, hss, rfl, -, hu⟩ := exists_kept h
    obtain ⟨w, r, hw, rfl, hr⟩ := ih hu
    exact ⟨_, r, .cons hss hw, by simp, hr⟩

/-- Of scattered characters these are left, if no sequence can start at one of them. -/
theorem Scattered.stripStyles_append (h : Scattered s w) (hs : '\x1b' ∉ s) (b : Text) :
    (w ++ b).stripStyles = s ++ b.stripStyles := by
  induction h with
  | nil => rfl
  | @cons ss c s w hss h ih =>
    rw [List.mem_cons, not_or] at hs
    rw [List.append_assoc, stripStyles_flatten hss, List.cons_append,
      stripStyles_kept (sequenceLength?_of_ne (Ne.symm hs.1) _), ih hs.2, List.cons_append]

/-- Where the first letter of `w` comes before any escape character, nothing stands between the
characters of a `s` that has its only letter at its end. -/
theorem Scattered.eq_of_append {q u b : Text} {letter : Char} (h : Scattered s w)
    (hs : ∀ c ∈ s.dropLast, isFinal c = false) (hq : '\x1b' ∉ q) (hl : isFinal letter = true)
    (htext : w ++ b = q ++ letter :: u) : w = s := by
  induction h generalizing q with
  | nil => rfl
  | @cons ss c s w hss h ih =>
    cases ss with
    | cons x ss =>
      obtain ⟨y, rfl, -⟩ := (hss x (.head _)).exists_cons
      cases q with
      | nil => exact absurd (List.cons.inj htext).1.symm (ne_escape_of_isFinal hl)
      | cons d q => exact absurd ((List.cons.inj htext).1 ▸ .head _) hq
    | nil =>
      cases q with
      | nil =>
        obtain rfl : c = letter := (List.cons.inj htext).1
        cases h with
        | nil => rfl
        | cons hss h => exact absurd (hs c (.head _)) (by simp [hl])
      | cons d q =>
        have hs' : ∀ x ∈ s.dropLast, isFinal x = false := fun x hx =>
          hs x (by cases s with
            | nil => cases hx
            | cons e s => exact .tail _ hx)
        exact congrArg (c :: ·) (ih hs' (fun hm => hq (.tail _ hm)) (List.cons.inj htext).2)

end Scattered

/-- A broken sequence does not start with a sequence. -/
theorem sequenceLength?_scattered {s w : Text} (hs : IsSequence ('\x1b' :: s)) (hw : Scattered s w)
    (hne : w ≠ s) (b : Text) : sequenceLength? ('\x1b' :: (w ++ b)) = none := by
  refine sequenceLength?_eq_none_iff.2 ?_
  rintro _ ⟨parameters, letter, hp, hl, rfl⟩ ⟨u, htext⟩
  obtain ⟨parameters', letter', hp', -, hs'⟩ := hs
  cases hs'
  have hletter : ∀ c ∈ ('[' :: (parameters' ++ [letter'])).dropLast, isFinal c = false := by
    rw [← List.cons_append, List.dropLast_concat]
    exact List.forall_mem_cons.2 ⟨by decide, fun c hc => not_isFinal_of_isParameter (hp' c hc)⟩
  have hescape : '\x1b' ∉ '[' :: parameters :=
    List.not_mem_cons_of_ne_of_not_mem (by decide) fun hm => ne_escape_of_isParameter (hp _ hm) rfl
  exact hne (hw.eq_of_append hletter hescape hl (by simpa using (List.cons.inj htext).2.symm))

/-- **Stripping leaves a sequence** just where the characters of one have others between them. -/
theorem hasSequence_stripStyles_iff {t : Text} :
    t.stripStyles.HasSequence ↔ t.HasBrokenSequence := by
  constructor
  · rintro ⟨s, hs, a, b, htext⟩
    obtain ⟨s, rfl, -⟩ := hs.exists_cons
    rw [List.append_assoc] at htext
    obtain ⟨v, r, -, rfl, hr⟩ := exists_scattered htext.symm
    obtain ⟨ss, u, -, rfl, hnone, hu⟩ := exists_kept hr
    obtain ⟨w, r, hw, rfl, -⟩ := exists_scattered hu
    refine ⟨s, w, hs, hw, ?_, v ++ ss.flatten, r, by simp⟩
    rintro rfl
    exact sequenceLength?_eq_none_iff.1 hnone _ hs ⟨r, rfl⟩
  · rintro ⟨s, w, hs, hw, hne, a, b, rfl⟩
    obtain ⟨r, hr, hno⟩ := hs.exists_cons
    cases hr
    refine ⟨_, hs, stripStyles a, stripStyles b, ?_⟩
    rw [List.append_assoc, List.append_assoc, List.cons_append, List.cons_append,
      stripStyles_append_escape, stripStyles_kept (sequenceLength?_scattered hs hw hne b),
      hw.stripStyles_append hno]

instance (t : Text) : Decidable t.HasBrokenSequence :=
  decidable_of_iff t.stripStyles.HasSequence hasSequence_stripStyles_iff

example : HasBrokenSequence "a\x1b[3\x1b[0m\x1b[1m1mb".toList := by decide

end AgdaFrontEnd.Text
