import AgdaFrontEnd.Json.Writer
import AgdaFrontEnd.Proofs.Text.Decimal

/-!
# The characters of written values

* `Json.Layout.Writes`: printable ASCII, and line feeds where parts stand on lines of their own.
* `Json.writes_valueText`: a written value has no other characters.
* `Json.newline_not_mem_toText`: a value on one line has no line feed.
-/

namespace AgdaFrontEnd.Json

/-- The printable characters of ASCII. -/
def IsGraphic (c : Char) : Prop := 0x20 ≤ c.toNat ∧ c.toNat < 0x7F

instance (c : Char) : Decidable (IsGraphic c) := inferInstanceAs (Decidable (_ ∧ _))

/-- For a text that is spelled out, each of its characters is looked at. -/
theorem isGraphic_of_all {t : Text} (h : (t.all fun c => decide (IsGraphic c)) = true) :
    ∀ c ∈ t, IsGraphic c :=
  fun c hc => of_decide_eq_true (List.all_eq_true.1 h c hc)

/-! ## Numbers -/

theorem isGraphic_of_isDigit {c : Char} (h : c.isDigit = true) : IsGraphic c := by
  simp only [Char.isDigit, Bool.and_eq_true, decide_eq_true_eq, UInt32.le_iff_toNat_le] at h
  exact ⟨le_trans (by decide) h.1, lt_of_le_of_lt h.2 (by decide)⟩

theorem isGraphic_of_mem_ofNat {n : Nat} {c : Char} (h : c ∈ Text.ofNat n) : IsGraphic c :=
  isGraphic_of_isDigit (Text.isDigit_of_mem_ofNat h)

theorem isGraphic_of_mem_zeros {k : Nat} {c : Char} (h : c ∈ List.replicate k '0') : IsGraphic c := by
  rw [List.eq_of_mem_replicate h]
  decide

theorem isGraphic_exponentText (x : Int) : ∀ c ∈ Binary64.exponentText x, IsGraphic c := by
  unfold Binary64.exponentText Text.padLeft
  simp only [List.forall_mem_append, List.forall_mem_singleton]
  refine ⟨by split <;> decide, fun _ => isGraphic_of_mem_zeros, fun _ => isGraphic_of_mem_ofNat⟩

theorem isGraphic_decimalText (n : Nat) (power : Int) :
    ∀ c ∈ Binary64.decimalText n power, IsGraphic c := by
  have hdigits : ∀ c ∈ Text.ofNat n, IsGraphic c := fun _ => isGraphic_of_mem_ofNat
  unfold Binary64.decimalText
  dsimp only
  split
  · have hpower := isGraphic_exponentText ((Text.ofNat n).length - 1 + power)
    generalize (((Text.ofNat n).length : Int) - 1 + power) = x at hpower ⊢
    generalize Text.ofNat n = ds at hdigits ⊢
    split
    · simp only [List.forall_mem_append, List.forall_mem_cons]
      exact ⟨⟨hdigits _ (.head _), by decide, List.forall_mem_nil _⟩, hpower⟩
    · simp only [List.forall_mem_append, List.forall_mem_cons]
      exact ⟨⟨⟨⟨hdigits _ (.head _), by decide, List.forall_mem_nil _⟩,
        fun c hc => hdigits c (.tail _ hc)⟩, by decide, List.forall_mem_nil _⟩, hpower⟩
    · exact List.forall_mem_nil _
  split
  · simp only [List.forall_mem_append]
    exact ⟨⟨hdigits, fun _ => isGraphic_of_mem_zeros⟩, isGraphic_of_all rfl⟩
  split
  · simp only [List.forall_mem_append]
    exact ⟨⟨fun c hc => hdigits c (List.mem_of_mem_take hc), isGraphic_of_all rfl⟩,
      fun c hc => hdigits c (List.mem_of_mem_drop hc)⟩
  · simp only [List.forall_mem_append]
    exact ⟨⟨isGraphic_of_all rfl, fun _ => isGraphic_of_mem_zeros⟩, hdigits⟩

theorem isGraphic_ofInt (n : Int) : ∀ c ∈ Text.ofInt n, IsGraphic c := by
  intro c hc
  rcases Text.mem_ofInt hc with rfl | hc
  · decide
  · exact isGraphic_of_isDigit hc

theorem isGraphic_floatText (x : Binary64) : ∀ c ∈ floatText x, IsGraphic c := by
  cases x with
  | nan => exact isGraphic_of_all rfl
  | infinite negative => cases negative <;> exact isGraphic_of_all rfl
  | finite negative m e =>
    have hsign : ∀ c ∈ (if negative then ['-'] else []), IsGraphic c := by
      cases negative <;> exact isGraphic_of_all rfl
    rw [floatText, Binary64.toText, List.forall_mem_append]
    · refine ⟨hsign, ?_⟩
      split
      · exact isGraphic_of_all rfl
      · exact isGraphic_decimalText _ _
    · rintro ⟨⟩
    · rintro _ ⟨⟩

/-! ## Strings -/

theorem isGraphic_digitChar : ∀ n < 16, IsGraphic (Nat.digitChar n) := by decide

theorem isGraphic_unitText (n : Nat) : ∀ c ∈ unitText n, IsGraphic c := by
  have hdigit (k : Nat) : IsGraphic (Nat.digitChar (k % 16)) :=
    isGraphic_digitChar _ (Nat.mod_lt _ (by decide))
  simp only [unitText, Text.hex, List.nil_append, List.cons_append, List.forall_mem_cons, hdigit,
    List.not_mem_nil, false_implies, implies_true, and_true]
  decide

theorem isGraphic_charText (c : Char) : ∀ d ∈ charText c, IsGraphic d := by
  unfold charText
  iterate 7
    split
    · exact isGraphic_of_all rfl
  split
  · next h => simpa using ⟨h.1, h.2⟩
  split
  · exact isGraphic_unitText _
  · rw [List.forall_mem_append]
    exact ⟨isGraphic_unitText _, isGraphic_unitText _⟩

theorem isGraphic_stringText (t : Text) : ∀ c ∈ stringText t, IsGraphic c := by
  unfold stringText
  simp only [List.forall_mem_append]
  refine ⟨⟨isGraphic_of_all rfl, fun c hc => ?_⟩, isGraphic_of_all rfl⟩
  obtain ⟨d, -, hd⟩ := List.mem_flatMap.1 hc
  exact isGraphic_charText d c hd

/-! ## Values -/

/-- The characters of a written value. -/
def Layout.Writes (layout : Layout) (c : Char) : Prop := IsGraphic c ∨ c = '\n' ∧ layout ≠ .oneLine

section Values

variable (layout : Layout)

theorem writes_of_isGraphic {t : Text} (h : ∀ c ∈ t, IsGraphic c) : ∀ c ∈ t, layout.Writes c :=
  fun c hc => .inl (h c hc)

theorem writes_newLine (depth : Nat) : ∀ c ∈ layout.newLine depth, layout.Writes c := by
  cases layout with
  | oneLine => exact fun c hc => absurd hc List.not_mem_nil
  | indented width =>
    rintro c (_ | ⟨_, hc⟩)
    · exact .inr ⟨rfl, nofun⟩
    · rw [List.eq_of_mem_replicate hc]
      exact .inl (by decide)

theorem writes_separator (depth : Nat) : ∀ c ∈ layout.separator depth, layout.Writes c := by
  cases layout with
  | oneLine => exact writes_of_isGraphic _ (isGraphic_of_all rfl)
  | indented width =>
    rintro c (_ | ⟨_, hc⟩)
    · exact .inl (by decide)
    · exact writes_newLine (.indented width) depth c hc

mutual

/-- **A written value has printable characters and line feeds only.** -/
theorem writes_valueText (depth : Nat) : ∀ v : Json, ∀ c ∈ valueText layout depth v, layout.Writes c
  | .null => writes_of_isGraphic _ (isGraphic_of_all rfl)
  | .bool b => writes_of_isGraphic _ (by cases b <;> exact isGraphic_of_all rfl)
  | .int n => writes_of_isGraphic _ (isGraphic_ofInt n)
  | .float x => writes_of_isGraphic _ (isGraphic_floatText x)
  | .string t => writes_of_isGraphic _ (isGraphic_stringText t)
  | .array [] => writes_of_isGraphic _ (isGraphic_of_all rfl)
  | .array (v :: vs) => by
    simp only [valueText, List.forall_mem_append]
    exact ⟨⟨⟨⟨⟨writes_of_isGraphic _ (isGraphic_of_all rfl), writes_newLine layout _⟩, writes_valueText _ v⟩,
      writes_itemsText _ vs⟩, writes_newLine layout _⟩, writes_of_isGraphic _ (isGraphic_of_all rfl)⟩
  | .object [] => writes_of_isGraphic _ (isGraphic_of_all rfl)
  | .object ((k, v) :: ms) => by
    simp only [valueText, List.forall_mem_append]
    exact ⟨⟨⟨⟨⟨⟨⟨writes_of_isGraphic _ (isGraphic_of_all rfl), writes_newLine layout _⟩,
      writes_of_isGraphic _ (isGraphic_stringText k)⟩, writes_of_isGraphic _ (isGraphic_of_all rfl)⟩,
      writes_valueText _ v⟩, writes_membersText _ ms⟩, writes_newLine layout _⟩,
      writes_of_isGraphic _ (isGraphic_of_all rfl)⟩

theorem writes_itemsText (depth : Nat) : ∀ vs : List Json,
    ∀ c ∈ itemsText layout depth vs, layout.Writes c
  | [] => fun c hc => absurd hc List.not_mem_nil
  | v :: vs => by
    simp only [itemsText, List.forall_mem_append]
    exact ⟨⟨writes_separator layout depth, writes_valueText depth v⟩, writes_itemsText depth vs⟩

theorem writes_membersText (depth : Nat) : ∀ ms : List (Text × Json),
    ∀ c ∈ membersText layout depth ms, layout.Writes c
  | [] => fun c hc => absurd hc List.not_mem_nil
  | (k, v) :: ms => by
    simp only [membersText, List.forall_mem_append]
    exact ⟨⟨⟨⟨writes_separator layout depth, writes_of_isGraphic _ (isGraphic_stringText k)⟩,
      writes_of_isGraphic _ (isGraphic_of_all rfl)⟩, writes_valueText depth v⟩, writes_membersText depth ms⟩

end

end Values

/-- A value on one line has no line feed. -/
theorem newline_not_mem_toText (v : Json) : '\n' ∉ v.toText .oneLine := by
  intro h
  rcases writes_valueText .oneLine 0 v _ h with h | ⟨-, h⟩
  · exact absurd h (by decide)
  · exact h rfl

end AgdaFrontEnd.Json
