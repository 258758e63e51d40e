import AgdaFrontEnd.Proofs.Location
import AgdaFrontEnd.Proofs.Text.Occurrence

/-!
# Written locations

A location that is written behind a file and a colon is read back as the range that it tells, in either
of its two forms, and whatever stands behind it on its line and on the lines after it.

* `Location.IsNumeral`: the decimal spellings of a number.
* `Location.IsWritten`: the two forms of four numbers.
* `Location.HasToken`: texts that hold a location; `Location.isSome_find?_iff` says that it is found,
  and `Location.find?_append_colon` passes over those that hold none.
* `Location.Token.range_eq_ok`: the range of a location whose numbers can all be read.
* `Location.written_location_read`: the range of a written location is read back.
-/

namespace AgdaFrontEnd.Location

/-! ## Numbers -/

/-- Decimal digits of any script, at least one. -/
structure IsDigits (ds : Text) : Prop where
  ne_nil : ds ≠ []
  all : ∀ c ∈ ds, isDigit c = true

/-- The text spells a number in decimal, with no more digits than are read. -/
structure IsNumeral (ds : Text) (n : Nat) : Prop where
  digits : IsDigits ds
  length_le : ds.length ≤ IntegerFault.digitLimit
  value_eq : Digits.value (ds.filterMap digitValue?) = n

instance (ds : Text) : Decidable (IsDigits ds) :=
  decidable_of_iff (ds ≠ [] ∧ ds.all isDigit = true)
    ⟨fun ⟨hne, hall⟩ => ⟨hne, List.all_eq_true.1 hall⟩, fun h => ⟨h.ne_nil, List.all_eq_true.2 h.all⟩⟩

instance (ds : Text) (n : Nat) : Decidable (IsNumeral ds n) :=
  decidable_of_iff (IsDigits ds ∧ ds.length ≤ IntegerFault.digitLimit ∧
      Digits.value (ds.filterMap digitValue?) = n)
    ⟨fun ⟨hd, hl, hv⟩ => ⟨hd, hl, hv⟩, fun h => ⟨h.digits, h.length_le, h.value_eq⟩⟩

theorem IsDigits.not_mem {ds : Text} (h : IsDigits ds) {c : Char} (hc : isDigit c = false) :
    c ∉ ds := by
  intro hm
  rw [h.all c hm] at hc
  cases hc

theorem IsNumeral.not_isOverlong {ds : Text} {n : Nat} (h : IsNumeral ds n) :
    ¬ IsOverlong (ds.filterMap digitValue?) := by
  rw [IsOverlong, length_digits h.digits.all]
  exact Nat.not_lt.2 h.length_le

/-! ## Texts without a location -/

/-- A location stands somewhere in the text: two numbers with a comma between them, a dash and a
number. -/
def HasToken (t : Text) : Prop :=
  ∃ a b c, IsDigits a ∧ IsDigits b ∧ IsDigits c ∧ a ++ ',' :: (b ++ '-' :: c) <:+: t

variable {t r : Text}

theorem exists_of_digits? {ds : List Nat} (h : digits? t = some (ds, r)) :
    ∃ a, IsDigits a ∧ t = a ++ r := by
  have htext := List.takeWhile_append_dropWhile (p := isDigit) (l := t)
  unfold digits? at h
  split at h
  · cases h
  · rename_i hne
    cases h
    exact ⟨t.takeWhile isDigit, ⟨hne, List.all_eq_true.1 List.all_takeWhile⟩, htext.symm⟩

theorem isSome_digits?_append {ds : Text} (h : IsDigits ds) (r : Text) :
    (digits? (ds ++ r)).isSome = true := by
  have htake : (ds ++ r).takeWhile isDigit = ds ++ r.takeWhile isDigit :=
    List.takeWhile_append_of_pos h.all
  have hne : ds ++ r.takeWhile isDigit ≠ [] := fun hnil => h.ne_nil (List.append_eq_nil_iff.1 hnil).1
  unfold digits?
  rw [htake]
  split
  · rename_i hnil
    exact absurd hnil hne
  · rfl

/-- Where a location is read there is one. -/
theorem exists_of_token? {l : Token} (h : token? t = some l) : ∃ a b c r, IsDigits a ∧ IsDigits b ∧
    IsDigits c ∧ t = a ++ ',' :: (b ++ '-' :: c) ++ r := by
  simp only [token?, Option.bind_eq_bind, Option.bind_eq_some_iff, Prod.exists] at h
  obtain ⟨_, t₁, hstartLine, t₂, hcomma, _, t₃, hstartCol, t₄, hdash, _, t₅, hend, -⟩ := h
  obtain ⟨a, ha, rfl⟩ := exists_of_digits? hstartLine
  obtain rfl := Text.eq_append_of_dropPrefix? hcomma
  obtain ⟨b, hb, rfl⟩ := exists_of_digits? hstartCol
  obtain rfl := Text.eq_append_of_dropPrefix? hdash
  obtain ⟨c, hc, rfl⟩ := exists_of_digits? hend
  exact ⟨a, b, c, t₅, ha, hb, hc, by simp⟩

/-- Where there is a location one is read. -/
theorem isSome_token? {a b c : Text} (ha : IsDigits a) (hb : IsDigits b) (hc : IsDigits c) (r : Text) :
    (token? (a ++ ',' :: (b ++ '-' :: c) ++ r)).isSome = true := by
  obtain ⟨⟨first, rest⟩, hfirst⟩ := Option.isSome_iff_exists.1 (isSome_digits?_append hc r)
  have htext : a ++ ',' :: (b ++ '-' :: c) ++ r = a ++ ',' :: (b ++ '-' :: (c ++ r)) := by simp
  rw [htext, token?_start ha.all ha.ne_nil hb.all hb.ne_nil hfirst]
  rfl

/-- **A location is found** just in the texts that hold one. -/
theorem isSome_find?_iff : (find? t).isSome = true ↔ HasToken t := by
  constructor
  · intro h
    induction t with
    | nil => cases h
    | cons x t ih =>
      rw [find?] at h
      split at h
      · rename_i l hl
        obtain ⟨a, b, c, r, ha, hb, hc, htext⟩ := exists_of_token? hl
        exact ⟨a, b, c, ha, hb, hc, [], r, htext.symm⟩
      · obtain ⟨a, b, c, ha, hb, hc, hi⟩ := ih h
        exact ⟨a, b, c, ha, hb, hc, List.infix_cons hi⟩
  · rintro ⟨a, b, c, ha, hb, hc, p, r, rfl⟩
    induction p with
    | nil =>
      obtain ⟨l, hl⟩ := Option.isSome_iff_exists.1 (isSome_token? ha hb hc r)
      rw [List.nil_append, find?_of_token? hl]
      rfl
    | cons x p ih =>
      simp only [List.cons_append, find?]
      split
      · rfl
      · exact ih

instance (t : Text) : Decidable (HasToken t) := decidable_of_iff _ isSome_find?_iff

/-- **A text without a location is passed over** up to a colon, which no location reaches over. -/
theorem find?_append_colon {p : Text} (hp : ¬ HasToken p) (t : Text) :
    find? (p ++ ':' :: t) = find? t := by
  induction p with
  | nil => rw [List.nil_append, find?, token?_of_not_isDigit (by decide)]
  | cons c p ih =>
    have htail : ¬ HasToken p := by
      rintro ⟨a, b, d, ha, hb, hd, hi⟩
      exact hp ⟨a, b, d, ha, hb, hd, List.infix_cons hi⟩
    have hnone : token? (c :: (p ++ ':' :: t)) = none := by
      -- a location here would hold no colon, so it would stand in the text before the colon
      refine Option.eq_none_iff_forall_ne_some.2 fun l hl => hp ?_
      obtain ⟨a, b, d, r, ha, hb, hd, htext⟩ := exists_of_token? hl
      have hcolon : ':' ∉ a ++ ',' :: (b ++ '-' :: d) := by
        have hno : isDigit ':' = false := by decide
        simp [ha.not_mem hno, hb.not_mem hno, hd.not_mem hno]
      have hprefix := Text.prefix_of_append_cons (t := c :: p) hcolon htext.symm
      exact ⟨a, b, d, ha, hb, hd, hprefix.isInfix⟩
    rw [List.cons_append, find?, hnone]
    exact ih htail

/-! ## Written locations -/

/-- The forms in which a line and a column, and an end line and an end column, are written: the end
line may be left out within one line. -/
inductive IsWritten (l₁ c₁ l₂ c₂ : Nat) : Text → Prop
  | lines {a b c d : Text} (ha : IsNumeral a l₁) (hb : IsNumeral b c₁) (hc : IsNumeral c l₂)
      (hd : IsNumeral d c₂) : IsWritten l₁ c₁ l₂ c₂ (a ++ ',' :: (b ++ '-' :: (c ++ ',' :: d)))
  | line {a b d : Text} (ha : IsNumeral a l₁) (hb : IsNumeral b c₁) (hd : IsNumeral d c₂)
      (hl : l₁ = l₂) : IsWritten l₁ c₁ l₂ c₂ (a ++ ',' :: (b ++ '-' :: d))

/-- The numbers are in order: the end does not come before the start, but that it may be one column
before it on one line. -/
def InOrder (l₁ c₁ l₂ c₂ : Nat) : Prop := l₁ < l₂ ∨ l₁ = l₂ ∧ c₁ ≤ c₂ + 1

instance (l₁ c₁ l₂ c₂ : Nat) : Decidable (InOrder l₁ c₁ l₂ c₂) :=
  inferInstanceAs (Decidable (_ ∨ _ ∧ _))

/-- The range of a location whose numbers can all be read. -/
theorem Token.range_eq_ok {l : Token} (h : ∀ ds ∈ l.numbers, ¬ IsOverlong ds) :
    l.range = .ok (SourceRange.ofInts (Digits.value l.startLine) (Digits.value l.startCol)
      (Digits.value (l.endLine.getD l.startLine)) (Digits.value l.endCol)).toOption := by
  obtain ⟨a, b, c, d⟩ := l
  have ha := ofDigits_of_not_isOverlong (h a (by simp [numbers]))
  have hb := ofDigits_of_not_isOverlong (h b (by simp [numbers]))
  have hd := ofDigits_of_not_isOverlong (h d (by simp [numbers]))
  cases c with
  | none => simp [range, ha, hb, hd, bind, Except.bind, pure, Except.pure]
  | some c =>
    have hc := ofDigits_of_not_isOverlong (h c (by simp [numbers]))
    simp [range, ha, hb, hc, hd, bind, Except.bind, pure, Except.pure]

variable {l₁ c₁ l₂ c₂ : Nat} {place : Text}

/-- No line ends in a written location. -/
theorem IsWritten.newline_not_mem (h : IsWritten l₁ c₁ l₂ c₂ place) : '\n' ∉ place := by
  have hno : isDigit '\n' = false := by decide
  cases h with
  | lines ha hb hc hd =>
    simp [ha.digits.not_mem hno, hb.digits.not_mem hno, hc.digits.not_mem hno, hd.digits.not_mem hno]
  | line ha hb hd =>
    simp [ha.digits.not_mem hno, hb.digits.not_mem hno, hd.digits.not_mem hno]

/-- A written location is read, and its range is that of the numbers. -/
theorem IsWritten.exists_token (h : IsWritten l₁ c₁ l₂ c₂ place) {rest : Text}
    (hrest : ∀ c ∈ rest.head?, isDigit c = false ∧ c ≠ ',') :
    ∃ l, token? (place ++ rest) = some l ∧
      l.range = .ok (SourceRange.ofInts l₁ c₁ l₂ c₂).toOption := by
  cases h with
  | lines ha hb hc hd =>
    have htoken := token?_lines ha.digits.all ha.digits.ne_nil hb.digits.all hb.digits.ne_nil
      hc.digits.all hc.digits.ne_nil hd.digits.all hd.digits.ne_nil fun x hx => (hrest x hx).1
    refine ⟨_, by simpa using htoken, (Token.range_eq_ok ?_).trans ?_⟩
    · simp [Token.numbers, ha.not_isOverlong, hb.not_isOverlong, hc.not_isOverlong, hd.not_isOverlong]
    · simp [ha.value_eq, hb.value_eq, hc.value_eq, hd.value_eq]
  | line ha hb hd hl =>
    have htoken := token?_line ha.digits.all ha.digits.ne_nil hb.digits.all hb.digits.ne_nil
      hd.digits.all hd.digits.ne_nil hrest
    refine ⟨_, by simpa using htoken, (Token.range_eq_ok ?_).trans ?_⟩
    · simp [Token.numbers, ha.not_isOverlong, hb.not_isOverlong, hd.not_isOverlong]
    · simp [ha.value_eq, hb.value_eq, hd.value_eq, hl]

/-! ## Messages -/

/-- The range of a message is told by its first line. -/
theorem ofMessage_append_newline (line rest : Text) :
    ofMessage (line ++ '\n' :: rest) = ofMessage line := by
  have hline : Text.upTo '\n' (line ++ '\n' :: rest) = line.upTo '\n' := by
    induction line with
    | nil => rfl
    | cons c line ih =>
      simp only [Text.upTo, List.cons_append, List.takeWhile_cons] at ih ⊢
      rw [ih]
  rw [ofMessage, hline, ofMessage]

/-- What is found in a message whose location stands behind a text without one and a colon. -/
theorem IsWritten.ofMessage_eq (h : IsWritten l₁ c₁ l₂ c₂ place) {p rest : Text} (hline : '\n' ∉ p)
    (hp : ¬ HasToken p) (hrest : ∀ c ∈ rest.head?, isDigit c = false ∧ c ≠ ',') :
    ofMessage (p ++ ':' :: (place ++ rest)) = .ok (SourceRange.ofInts l₁ c₁ l₂ c₂).toOption := by
  have hfirst : Text.upTo '\n' (p ++ ':' :: (place ++ rest)) =
      p ++ ':' :: (place ++ rest.upTo '\n') := by
    have hkept {t : Text} (ht : '\n' ∉ t) : ∀ c ∈ t, (c != '\n') = true := fun c hc =>
      bne_iff_ne.2 fun heq => ht (heq ▸ hc)
    rw [Text.upTo, List.takeWhile_append_of_pos (hkept hline), List.takeWhile_cons_of_pos (by decide),
      List.takeWhile_append_of_pos (hkept h.newline_not_mem), ← Text.upTo]
  have hhead : ∀ c ∈ (rest.upTo '\n').head?, isDigit c = false ∧ c ≠ ',' := by
    intro c hc
    refine hrest c ?_
    cases rest with
    | nil => exact hc
    | cons x r =>
      by_cases hx : x = '\n' <;> simp_all [Text.upTo]
  obtain ⟨l, hl, hrange⟩ := h.exists_token hhead
  rw [ofMessage, hfirst, find?_append_colon hp, find?_of_token? hl]
  exact hrange

/-- **A written location is read back** as the range of its numbers if they are in order, and as none
otherwise, behind a colon and any text of its line that holds no location itself, and whatever follows
it; the reading does not fail.  And the range of every message is told by its first line. -/
theorem written_location_read :
    (∀ (p place rest : Text) (l₁ c₁ l₂ c₂ : Nat), '\n' ∉ p → ¬ HasToken p →
      IsWritten l₁ c₁ l₂ c₂ place → (∀ c ∈ rest.head?, isDigit c = false ∧ c ≠ ',') →
      (InOrder l₁ c₁ l₂ c₂ → ∃ r : SourceRange, r.startLine = l₁ ∧ r.startCol = c₁ ∧
        r.endLine = l₂ ∧ r.endCol = c₂ ∧ ofMessage (p ++ ':' :: (place ++ rest)) = .ok (some r)) ∧
      (¬ InOrder l₁ c₁ l₂ c₂ → ofMessage (p ++ ':' :: (place ++ rest)) = .ok none)) ∧
    ∀ line rest : Text, ofMessage (line ++ '\n' :: rest) = ofMessage line := by
  refine ⟨fun p place rest l₁ c₁ l₂ c₂ hline hp hplace hrest => ?_, ofMessage_append_newline⟩
  rw [hplace.ofMessage_eq hline hp hrest]
  constructor
  · intro horder
    have hordered : (l₁ : Int) ≤ l₂ ∧ ((l₁ : Int) = l₂ → (c₁ : Int) ≤ c₂ + 1) := by
      unfold InOrder at horder
      omega
    refine ⟨⟨l₁, c₁, l₂, c₂, hordered⟩, rfl, rfl, rfl, rfl, ?_⟩
    rw [SourceRange.ofInts, dif_pos hordered]
    rfl
  · intro horder
    have hinverted : ¬ ((l₁ : Int) ≤ l₂ ∧ ((l₁ : Int) = l₂ → (c₁ : Int) ≤ c₂ + 1)) := by
      unfold InOrder at horder
      omega
    rw [SourceRange.ofInts, dif_neg hinverted]
    rfl

/-- The start of a message whose file has a name that is almost a location. -/
def nearToken : Text := "7,2-x/٣,.agda".toList

/-- A location within one line, with a leading zero and digits of two scripts. -/
def mixedDigits : Text := "03,5-٨".toList

/-- A location that ends before it starts. -/
def inverted : Text := "3,5-3,3".toList

theorem written_location_read_samples :
    ofMessage "7,2-x/٣,.agda:03,5-٨\n1,1-2".toList = .ok (some ⟨3, 5, 3, 8, by decide⟩) ∧
      ofMessage "7,2-x/٣,.agda:3,5-3,3: 9,9-9".toList = .ok none := by
  have hline : '\n' ∉ nearToken := by decide
  have hp : ¬ HasToken nearToken := by decide +kernel
  have hmixed : IsWritten 3 5 3 8 mixedDigits :=
    .line (a := "03".toList) (b := "5".toList) (d := "٨".toList) (by decide +kernel) (by decide +kernel)
      (by decide +kernel) rfl
  have hinverted : IsWritten 3 5 3 3 inverted :=
    .lines (a := "3".toList) (b := "5".toList) (c := "3".toList) (d := "3".toList) (by decide +kernel)
      (by decide +kernel) (by decide +kernel) (by decide +kernel)
  have hbreak : ∀ c ∈ ("\n1,1-2".toList : Text).head?, isDigit c = false ∧ c ≠ ',' := by
    rintro c ⟨⟩
    decide
  have hcolon : ∀ c ∈ (": 9,9-9".toList : Text).head?, isDigit c = false ∧ c ≠ ',' := by
    rintro c ⟨⟩
    decide
  have hread := (written_location_read.1 nearToken mixedDigits _ 3 5 3 8 hline hp hmixed hbreak).1
    (by decide)
  have hnone := (written_location_read.1 nearToken inverted _ 3 5 3 3 hline hp hinverted hcolon).2
    (by decide)
  obtain ⟨⟨_, _, _, _, _⟩, rfl, rfl, rfl, rfl, heq⟩ := hread
  exact ⟨heq, hnone⟩

end AgdaFrontEnd.Location
