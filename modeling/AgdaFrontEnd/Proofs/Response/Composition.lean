import AgdaFrontEnd.Proofs.Response.Decomposition
import Mathlib.Data.List.Induction
import Mathlib.Data.List.Infix

/-!
# Scanning texts behind each other

More text keeps the fields that a scan has found, and a text that ends outside strings has no bearing on
what a scan finds behind it.  A scan is complete where the text ends outside strings and none of the
parentheses there is open, so that a text in parentheses is complete at its end and at no cut before it.

* `Quoted.EndsOutside`, `Quoted.depth`: the text ends outside strings, and its open parentheses.
* `Quoted.complete_iff`: where a scan is complete.
* `Quoted.isEnclosed_iff`: the texts that start with a parenthesis and are complete at their ends only.
* `Quoted.scan_composes`: scanning texts behind each other, and where a scan is complete.
-/

namespace AgdaFrontEnd.Quoted

/-! ## Ends and open parentheses of texts -/

/-- The text ends outside strings: it is made of characters outside strings and closed strings. -/
def EndsOutside (t : Text) : Prop := ∃ parts : List Part, parts.flatMap Part.text = t

/-- The number of parentheses outside strings that are open at the end of the text. -/
def depth (t : Text) : Int := (Decomposition.of t).depth

theorem endsOutside_iff {t : Text} : EndsOutside t ↔ (Decomposition.of t).tail = .nothing := by
  constructor
  · rintro ⟨parts, rfl⟩
    have h := Decomposition.of_text ⟨parts, .nothing⟩
    rw [Decomposition.text_of_nothing rfl] at h
    rw [h]
  · intro h
    refine ⟨(Decomposition.of t).parts, ?_⟩
    rw [← Decomposition.text_of_nothing h, Decomposition.text_of]

instance (t : Text) : Decidable (EndsOutside t) := decidable_of_iff _ endsOutside_iff.symm

theorem complete_iff {t : Text} : (scan t).complete = true ↔ EndsOutside t ∧ depth t ≤ 0 := by
  rw [scan_eq_decomposition, endsOutside_iff, depth, decide_eq_true_iff]

theorem depth_append_singleton (t : Text) (c : Char) :
    depth (t ++ [c]) = depth t + if EndsOutside t then Decomposition.weight c else 0 := by
  simp only [depth, Decomposition.of_append_singleton, (Decomposition.step_push _ c).depth_eq,
    endsOutside_iff]

theorem EndsOutside.append_singleton {t : Text} (h : EndsOutside t) {c : Char} (hq : c ≠ '"') :
    EndsOutside (t ++ [c]) := by
  obtain ⟨parts, rfl⟩ := h
  exact ⟨parts ++ [.bare c hq], by simp [Part.text]⟩

/-! ## Fields of texts behind each other -/

/-- The fields of a text are the first fields of every longer text. -/
theorem fields_prefix_append (a b : Text) : (scan a).fields <+: (scan (a ++ b)).fields := by
  have h : (Decomposition.of a).parts <+: (Decomposition.of (a ++ b)).parts := by
    rw [Decomposition.of, Decomposition.of, Decomposition.after_append]
    exact Decomposition.parts_after _ b
  rw [scan_eq_decomposition, scan_eq_decomposition]
  exact h.filterMap Part.field?

/-- Behind a text that ends outside strings, another text has the fields that it has by itself. -/
theorem EndsOutside.fields_append {a : Text} (h : EndsOutside a) (b : Text) :
    (scan (a ++ b)).fields = (scan a).fields ++ (scan b).fields := by
  rw [scan_eq_decomposition, scan_eq_decomposition a, scan_eq_decomposition b,
    Decomposition.of_append (endsOutside_iff.1 h)]
  exact List.filterMap_append

/-! ## Texts that are closed at their ends only -/

/-- The text starts with a parenthesis that is open up to its last character, which closes it. -/
structure IsEnclosed (t : Text) : Prop where
  head : t.head? = some '('
  stays_open : ∀ p, p <+: t → p ≠ [] → p ≠ t → 1 ≤ depth p
  last : ∃ r, t = r ++ [')'] ∧ EndsOutside r ∧ depth t = 0

theorem IsEnclosed.complete {t : Text} (h : IsEnclosed t) : (scan t).complete = true := by
  obtain ⟨r, ht, hr, hdepth⟩ := h.last
  have hend : EndsOutside t := ht ▸ hr.append_singleton (by decide)
  exact complete_iff.2 ⟨hend, Int.le_of_eq hdepth⟩

theorem IsEnclosed.incomplete {t p : Text} (h : IsEnclosed t) (hp : p <+: t) (hne : p ≠ [])
    (hpt : p ≠ t) : (scan p).complete = false := by
  have hopen := h.stays_open p hp hne hpt
  refine Bool.eq_false_iff.2 fun hc => ?_
  have hclosed := (complete_iff.1 hc).2
  omega

/-- A character that takes the last open parenthesis away stands outside strings and closes it. -/
theorem closes_of_depth {t : Text} {c : Char} (ht : 1 ≤ depth t) (hc : depth (t ++ [c]) ≤ 0) :
    c = ')' ∧ EndsOutside t ∧ depth (t ++ [c]) = 0 := by
  rw [depth_append_singleton] at hc ⊢
  by_cases hout : EndsOutside t
  · rw [if_pos hout] at hc ⊢
    unfold Decomposition.weight at hc ⊢
    split_ifs at hc ⊢ with ho hcl
    · omega
    · exact ⟨hcl, hout, by omega⟩
    · omega
  · rw [if_neg hout] at hc
    omega

/-- Where no text at the start of `t` is closed, a parenthesis is open in all of them. -/
theorem one_le_depth {t p : Text} (hhead : t.head? = some '(') (hp : p <+: t) (hne : p ≠ [])
    (hopen : ∀ q, q <+: p → q ≠ [] → (scan q).complete = false) : 1 ≤ depth p := by
  induction p using List.reverseRecOn with
  | nil => exact absurd rfl hne
  | append_singleton p c ih =>
    by_cases hnil : p = []
    · subst hnil
      obtain ⟨r, rfl⟩ := hp
      obtain rfl : c = '(' := by simpa using hhead
      decide
    · have hpre : p <+: p ++ [c] := List.prefix_append p [c]
      have ih := ih (hpre.trans hp) hnil fun q hq => hopen q (hq.trans hpre)
      -- If `c` closed the last parenthesis, the scan would be complete behind it.
      refine Classical.byContradiction fun hlt => ?_
      have hle : depth (p ++ [c]) ≤ 0 := by omega
      obtain ⟨rfl, hout, hzero⟩ := closes_of_depth ih hle
      have hcomplete := complete_iff.2 ⟨hout.append_singleton (by decide), Int.le_of_eq hzero⟩
      rw [hopen _ List.prefix_rfl (by simp)] at hcomplete
      cases hcomplete

/-- **The texts that start with a parenthesis and are reported as closed at their ends only.** -/
theorem isEnclosed_iff {t : Text} : IsEnclosed t ↔ t.head? = some '(' ∧ (scan t).complete = true ∧
    ∀ p, p <+: t → p ≠ [] → p ≠ t → (scan p).complete = false := by
  refine ⟨fun h => ⟨h.head, h.complete, fun p => h.incomplete⟩, fun ⟨hhead, hcomplete, hopen⟩ => ?_⟩
  have hdepth : ∀ p, p <+: t → p ≠ [] → p ≠ t → 1 ≤ depth p := by
    intro p hp hne hpt
    refine one_le_depth hhead hp hne fun q hq hqne => hopen q (hq.trans hp) hqne fun hqt => ?_
    exact hpt (hp.eq_of_length_le (hqt ▸ hq.length_le))
  have hzero := (complete_iff.1 hcomplete).2
  rcases List.eq_nil_or_concat' t with rfl | ⟨r, c, rfl⟩
  · cases hhead
  · have hr : r ≠ [] := by
      rintro rfl
      obtain rfl : c = '(' := by simpa using hhead
      exact absurd hzero (by decide)
    have hone := hdepth r (List.prefix_append r [c]) hr (by simp)
    obtain ⟨rfl, hout, hlast⟩ := closes_of_depth hone hzero
    exact ⟨hhead, hdepth, r, rfl, hout, hlast⟩

/-! ## Composition -/

/-- **Scanning texts behind each other.**  The fields of a text are those of the strings in it, and more
text keeps them.  Behind a text that ends outside strings, another one has the fields that it has by
itself.  And of the texts that start with a parenthesis, those are reported as closed at their ends and
nowhere before whose last character closes a parenthesis that has been open from the first one on. -/
theorem scan_composes (a b t : Text) :
    (∃ d : Decomposition, d.IsOnlyOf a ∧ (scan a).fields = d.fields) ∧
      (scan a).fields <+: (scan (a ++ b)).fields ∧
      (EndsOutside a → (scan (a ++ b)).fields = (scan a).fields ++ (scan b).fields) ∧
      (IsEnclosed t ↔ t.head? = some '(' ∧ (scan t).complete = true ∧
        ∀ p, p <+: t → p ≠ [] → p ≠ t → (scan p).complete = false) := by
  have hstrings : (scan a).fields = (Decomposition.of a).fields := by rw [scan_eq_decomposition]
  exact ⟨⟨_, Decomposition.isOnlyOf_of a, hstrings⟩, fields_prefix_append a b,
    fun h => h.fields_append b, isEnclosed_iff⟩

/-- A string with a quote and a parenthesis in it, and a backslash outside strings. -/
def beginning : Text := "(\"a\\\")\" \\".toList

/-- A string with an escaped letter and a parenthesis in it, and the parenthesis that closes. -/
def ending : Text := "\"b\\n(\" )".toList

theorem isEnclosed_sample : IsEnclosed (beginning ++ ending) where
  head := rfl
  stays_open := by
    have h : ∀ p ∈ (beginning ++ ending).inits, p ≠ [] → p ≠ beginning ++ ending → 1 ≤ depth p := by
      decide +kernel
    exact fun p hp => h p ((List.mem_inits _ _).2 hp)
  last := ⟨beginning ++ "\"b\\n(\" ".toList, rfl, by decide, by decide⟩

/-- The fields of the two texts.  They are closed together, and not where they are cut between a
backslash and the quote behind it. -/
theorem scan_composes_samples : EndsOutside beginning ∧
    (scan (beginning ++ ending)).fields = ["a\")".toList, "b\n(".toList] ∧
      IsEnclosed (beginning ++ ending) ∧ (scan (beginning ++ ending)).complete = true ∧
        (scan "(\"a\\".toList).complete = false := by
  have hout : EndsOutside beginning := by decide
  obtain ⟨-, -, hfields, henclosed⟩ := scan_composes beginning ending (beginning ++ ending)
  obtain ⟨-, hcomplete, hopen⟩ := henclosed.1 isEnclosed_sample
  have hcut := hopen "(\"a\\".toList (by decide) (by decide) (by decide)
  exact ⟨hout, hfields hout, isEnclosed_sample, hcomplete, hcut⟩

end AgdaFrontEnd.Quoted
