import AgdaFrontEnd.Text.Basic

/-!
# Occurrences of a word

A word without some character does not reach over this character.  A word of two different characters
does not overlap itself, so its first occurrence in a text is determined, and every other one lies
behind it.

* `Text.hasWord_iff`: a word is found just in the texts that it occurs in.
* `Text.splitAt?_append`: a word is found behind a text without its first character.
* `Text.prefix_of_append_cons`: a word at the start of a text ends before a character that is not in it.
* `Text.append_cons_inj`, `Text.upTo_append_cons`: the two sides of the first occurrence of a character.
* `Text.exists_first_pair`: a text that holds the word has a first occurrence of it.
* `Text.append_pair_cases`: an occurrence is the first one or lies behind it.
* `Text.append_pair_inj`: the two sides of the first occurrence are determined.
-/

namespace AgdaFrontEnd.Text

variable {a b : Char} {g g' r r' s t : Text}

theorem startsWith_iff {w : Text} : startsWith t w = true ↔ w <+: t := by
  rw [startsWith, Option.isSome_iff_exists]
  simp only [dropPrefix?_eq_some_iff]
  exact ⟨fun ⟨r, h⟩ => ⟨r, h.symm⟩, fun ⟨r, h⟩ => ⟨r, h.symm⟩⟩

/-- A word is found just in the texts that it occurs in. -/
theorem hasWord_iff {w : Text} : hasWord t w = true ↔ w <:+: t := by
  unfold hasWord
  induction t with
  | nil =>
    rw [splitAt?, Option.isSome_map, ← startsWith, startsWith_iff, List.prefix_nil, List.infix_nil]
  | cons c t ih =>
    rw [List.infix_cons_iff, ← ih, ← startsWith_iff, startsWith, splitAt?]
    cases dropPrefix? (c :: t) w with
    | some r => simp
    | none => simp

/-- A word is found behind a text without its first character. -/
theorem splitAt?_append {w : Text} (hg : a ∉ g) (r : Text) :
    splitAt? (g ++ (a :: w ++ r)) (a :: w) = some (g, r) := by
  induction g with
  | nil =>
    have hdrop := dropPrefix?_append (a :: w) r
    rw [List.cons_append] at hdrop
    rw [List.nil_append, List.cons_append, splitAt?, hdrop]
  | cons c g ih =>
    rw [List.mem_cons, not_or] at hg
    have hdrop : dropPrefix? (c :: (g ++ (a :: w ++ r))) (a :: w) = none := if_neg hg.1
    rw [List.cons_append, splitAt?, hdrop, ih hg.2]
    rfl

/-- A word at the start of a text ends before a character that is not in it. -/
theorem prefix_of_append_cons {w : Text} (ha : a ∉ w) (h : w ++ r = t ++ a :: s) : w <+: t := by
  rcases List.append_eq_append_iff.1 h with ⟨x, rfl, -⟩ | ⟨_ | ⟨b, x⟩, rfl, hx⟩
  · exact List.prefix_append w x
  · exact ⟨[], by simp⟩
  · rw [(List.cons.inj hx).1] at ha
    exact absurd (by simp) ha

/-- The two sides of the first occurrence of a character are determined. -/
theorem append_cons_inj (hg : a ∉ g) (hg' : a ∉ g') (h : g ++ a :: r = g' ++ a :: r') :
    g = g' ∧ r = r' := by
  have hle : g <+: g' := prefix_of_append_cons hg h
  have hge : g' <+: g := prefix_of_append_cons hg' h.symm
  obtain rfl : g = g' := hle.eq_of_length_le hge.length_le
  exact ⟨rfl, (List.cons.inj (List.append_cancel_left h)).2⟩

/-- What stands before the first occurrence of a character. -/
theorem upTo_append_cons (hg : a ∉ g) (r : Text) : upTo a (g ++ a :: r) = g := by
  have hkept : ∀ c ∈ g, (c != a) = true := fun c hc => bne_iff_ne.2 fun heq => hg (heq ▸ hc)
  rw [upTo, List.takeWhile_append_of_pos hkept, List.takeWhile_cons_of_neg (by simp),
    List.append_nil]

theorem exists_first_pair (h : [a, b] <:+: t) : ∃ g r, t = g ++ a :: b :: r ∧ ¬ [a, b] <:+: g := by
  induction t with
  | nil => simp at h
  | cons c t ih =>
    by_cases hp : [a, b] <+: c :: t
    · obtain ⟨r, hr⟩ := hp
      exact ⟨[], r, hr.symm, by simp⟩
    · obtain ⟨g, r, rfl, hg⟩ := ih ((List.infix_cons_iff.1 h).resolve_left hp)
      refine ⟨c :: g, r, rfl, fun hi => ?_⟩
      rcases List.infix_cons_iff.1 hi with hpre | hin
      · exact hp (hpre.trans (List.prefix_append (c :: g) (a :: b :: r)))
      · exact hg hin

/-- In a text that starts with the word, an occurrence is the one at the start or lies behind it. -/
theorem cons_pair_cases (hab : a ≠ b) (h : a :: b :: r = s ++ a :: b :: r') :
    s = [] ∧ r = r' ∨ ∃ x, s = a :: b :: x ∧ r = x ++ a :: b :: r' := by
  match s, h with
  | [], h => exact .inl ⟨rfl, by simpa using h⟩
  | [c], h => exact absurd (List.cons.inj (List.cons.inj h).2).1.symm hab
  | c :: d :: x, h =>
    simp only [List.cons_append, List.cons.injEq] at h
    obtain ⟨rfl, rfl, hr⟩ := h
    exact .inr ⟨x, rfl, hr⟩

theorem append_pair_cases (hab : a ≠ b) (hg : ¬ [a, b] <:+: g)
    (h : g ++ a :: b :: r = g' ++ a :: b :: r') :
    g = g' ∧ r = r' ∨ ∃ x, g' = g ++ a :: b :: x ∧ r = x ++ a :: b :: r' := by
  rcases List.append_eq_append_iff.1 h with ⟨s, rfl, hs⟩ | ⟨s, rfl, hs⟩
  · rcases cons_pair_cases hab hs with ⟨rfl, rfl⟩ | ⟨x, rfl, rfl⟩
    · exact .inl ⟨(List.append_nil g).symm, rfl⟩
    · exact .inr ⟨x, rfl, rfl⟩
  · rcases cons_pair_cases hab hs with ⟨rfl, rfl⟩ | ⟨x, rfl, -⟩
    · exact .inl ⟨List.append_nil g', rfl⟩
    · exact absurd ⟨g', x, by simp⟩ hg

theorem append_pair_inj (hab : a ≠ b) (hg : ¬ [a, b] <:+: g) (hg' : ¬ [a, b] <:+: g')
    (h : g ++ a :: b :: r = g' ++ a :: b :: r') : g = g' ∧ r = r' := by
  rcases append_pair_cases hab hg h with h | ⟨x, rfl, -⟩
  · exact h
  · exact absurd ⟨g, x, by simp⟩ hg'

/-- Before its first occurrence the word does not start. -/
theorem cons_append_pair_ne {c : Char} (hab : a ≠ b) (hg : ¬ [a, b] <:+: c :: g) (s : Text) :
    c :: (g ++ a :: b :: r) ≠ a :: b :: s := by
  intro h
  have hocc : c :: g ++ a :: b :: r = [] ++ a :: b :: s := h
  rcases append_pair_cases hab hg hocc with ⟨h, -⟩ | ⟨x, h, -⟩
  · cases h
  · cases h

end AgdaFrontEnd.Text
