import AgdaFrontEnd.Json.Reader
import AgdaFrontEnd.Json.Writer
import Mathlib.Data.List.Chain

/-!
# Written strings are read

A written character is an escape or stands for itself; the reader gets its code point, or the two
halves of a surrogate pair, from which the character is put together again.  A string of code points
that are not all characters, with halves of pairs among them, is read as itself too, except that a
first half with a second half right behind it comes back as one character.

* `Json.readUnits_charText`: one written character gives its units.
* `Json.points_pointUnits_append`: the units of a code point give the code point.
* `Json.readString_flatMap`: a written string is read as itself.
* `Json.readUnits_pointTexts`, `Json.points_pointUnits_iff`: what is read for code points, and when
  that is what was written.
-/

namespace AgdaFrontEnd.Json

/-! ## Hexadecimal digits -/

theorem hexDigit?_digitChar : ∀ n < 16, hexDigit? (Nat.digitChar n) = some n := by decide

/-- Four hexadecimal digits give the number that they were written for. -/
theorem readUnits_unitText {n : Nat} (hn : n < 0x10000) (t : Text) :
    readUnits (unitText n ++ t) = (readUnits t).map fun (s, rest) => (n :: s, rest) := by
  have hdigit (k : Nat) : hexDigit? (Nat.digitChar (k % 16)) = some (k % 16) :=
    hexDigit?_digitChar _ (Nat.mod_lt _ (by decide))
  have hfour : hexFour? (Nat.digitChar (n / 16 / 16 / 16 % 16)) (Nat.digitChar (n / 16 / 16 % 16))
      (Nat.digitChar (n / 16 % 16)) (Nat.digitChar (n % 16)) = some n := by
    simp only [hexFour?, hdigit, Option.bind_eq_bind, Option.bind_some]
    congr 1
    omega
  simp only [unitText, Text.hex, List.nil_append, List.cons_append, readUnits]
  rw [hfour]

/-! ## Units -/

/-- The UTF-16 code units of a code point. -/
def pointUnits (n : Nat) : List Nat :=
  if n < 0x10000 then [n] else [0xD800 + (n - 0x10000) / 0x400, 0xDC00 + (n - 0x10000) % 0x400]

/-- The UTF-16 code units of a character. -/
def units (c : Char) : List Nat := pointUnits c.toNat

theorem toNat_lt (c : Char) : c.toNat < 0x110000 := by
  rcases c.valid with h | h
  · exact Nat.lt_trans h (by decide)
  · exact h.2

/-- No character is half of a surrogate pair. -/
theorem not_surrogate (c : Char) : (isHighSurrogate c.toNat || isLowSurrogate c.toNat) = false := by
  have hc : c.toNat < 0xD800 ∨ 0xDFFF < c.toNat := c.valid.imp id And.left
  simp only [isHighSurrogate, isLowSurrogate, Bool.or_eq_false_iff, Bool.and_eq_false_iff,
    decide_eq_false_iff_not]
  omega

theorem units_of_lt {c : Char} (hc : c.toNat < 0x10000) : units c = [c.toNat] := if_pos hc

/-- A character written as itself. -/
theorem readUnits_plain {c : Char} (hq : c ≠ '"') (hb : c ≠ '\\') (hc : 0x20 ≤ c.toNat) (t : Text) :
    readUnits (c :: t) = (readUnits t).map fun (s, rest) => (c.toNat :: s, rest) := by
  have hlow : ¬ (c = '\\' || decide (c.toNat < 0x20)) = true := by simp [hb, hc]
  rw [readUnits]
  · rw [if_neg hlow]
  · exact hq
  · exact fun _ _ _ _ _ h _ => hb h
  · exact fun _ _ h _ => hb h

/-- A character written as an escape with one letter. -/
theorem readUnits_escape {e c : Char} (he : escapedChar? e = some c) (t : Text) :
    readUnits ('\\' :: e :: t) = (readUnits t).map fun (s, rest) => (c.toNat :: s, rest) := by
  rw [readUnits]
  · rw [he]
  · rintro a b c d r rfl -
    cases he

/-- **A written character gives its units.** -/
theorem readUnits_charText (c : Char) (t : Text) :
    readUnits (charText c ++ t) = (readUnits t).map fun (s, rest) => (units c ++ s, rest) := by
  unfold charText
  split
  · subst_vars; exact readUnits_escape rfl t
  split
  · subst_vars; exact readUnits_escape rfl t
  split
  · subst_vars; exact readUnits_escape rfl t
  split
  · subst_vars; exact readUnits_escape rfl t
  split
  · subst_vars; exact readUnits_escape rfl t
  split
  · subst_vars; exact readUnits_escape rfl t
  split
  · subst_vars; exact readUnits_escape rfl t
  rename_i hq hb _ _ _ _ _
  split
  · next h =>
    rw [units_of_lt (by omega)]
    exact readUnits_plain hq hb h.1 t
  split
  · next h =>
    rw [units_of_lt h]
    exact readUnits_unitText h t
  · next h =>
    have hlt := toNat_lt c
    rw [List.append_assoc, readUnits_unitText (by omega), readUnits_unitText (by omega), units, pointUnits,
      if_neg h]
    cases readUnits t <;> rfl

/-! ## Texts -/

/-- The first of two halves of a pair. -/
def Paired (n m : Nat) : Prop := (isHighSurrogate n && isLowSurrogate m) = true

instance (n m : Nat) : Decidable (Paired n m) := inferInstanceAs (Decidable (_ = true))

theorem points_cons {n : Nat} {r : List Nat} (h : ∀ m ∈ r.head?, ¬ Paired n m) :
    points (n :: r) = n :: points r := by
  cases r with
  | nil => rfl
  | cons m r => exact if_neg (h m rfl)

/-- The units of a code point give the code point, unless it is half of a pair that the next unit
completes. -/
theorem points_pointUnits_append {n : Nat} (hn : n < 0x110000) {r : List Nat}
    (h : ∀ m ∈ r.head?, ¬ Paired n m) : points (pointUnits n ++ r) = n :: points r := by
  unfold pointUnits
  split
  · exact points_cons h
  · have hpair : Paired (0xD800 + (n - 0x10000) / 0x400) (0xDC00 + (n - 0x10000) % 0x400) := by
      simp only [Paired, isHighSurrogate, isLowSurrogate, Bool.and_eq_true, decide_eq_true_eq]
      omega
    have hpoint : 0x10000 + (0xD800 + (n - 0x10000) / 0x400 - 0xD800) * 0x400 +
        (0xDC00 + (n - 0x10000) % 0x400 - 0xDC00) = n := by omega
    rw [List.cons_append, List.cons_append, List.nil_append, points, hpoint]
    exact if_pos hpair

theorem not_paired_toNat (c : Char) (m : Nat) : ¬ Paired c.toNat m := by
  simp [Paired, (Bool.or_eq_false_iff.1 (not_surrogate c)).1]

theorem ofPoint_toNat (c : Char) : ofPoint c.toNat = c := by
  rw [ofPoint, not_surrogate, if_neg Bool.false_ne_true, Char.ofNat_toNat]

/-- The units of a character give the character, whatever follows. -/
theorem ofUnits_units_append (c : Char) (r : List Nat) : ofUnits (units c ++ r) = c :: ofUnits r := by
  rw [ofUnits, units, points_pointUnits_append (toNat_lt c) fun m _ => not_paired_toNat c m,
    List.map_cons, ofPoint_toNat, ofUnits]

theorem ofUnits_flatMap_units : ∀ t : Text, ofUnits (t.flatMap units) = t
  | [] => rfl
  | c :: t => by rw [List.flatMap_cons, ofUnits_units_append, ofUnits_flatMap_units t]

theorem readUnits_flatMap (rest : Text) : ∀ t : Text,
    readUnits (t.flatMap charText ++ '"' :: rest) = .ok (t.flatMap units, rest)
  | [] => by rw [List.flatMap_nil, List.nil_append, readUnits]; rfl
  | c :: t => by
    rw [List.flatMap_cons, List.append_assoc, readUnits_charText, readUnits_flatMap rest t]
    rfl

/-- **A written string is read as itself.** -/
theorem readString_flatMap (t rest : Text) :
    readString (t.flatMap charText ++ '"' :: rest) = .ok (t, rest) := by
  rw [readString, readUnits_flatMap]
  exact congrArg (fun s => Except.ok (s, rest)) (ofUnits_flatMap_units t)

/-! ## Code points -/

/-- The written form of a code point: half of a surrogate pair is escaped by itself. -/
def pointText (n : Nat) : Text :=
  if isHighSurrogate n || isLowSurrogate n then unitText n else charText (Char.ofNat n)

/-- No first half of a pair stands right before a second half. -/
def Unpaired (ps : List Nat) : Prop := ps.IsChain fun n m => ¬ Paired n m

theorem readUnits_pointText {n : Nat} (hn : n < 0x110000) (t : Text) :
    readUnits (pointText n ++ t) = (readUnits t).map fun (s, rest) => (pointUnits n ++ s, rest) := by
  unfold pointText
  split
  · next h =>
    have hlt : n < 0x10000 := by
      simp only [isHighSurrogate, isLowSurrogate, Bool.or_eq_true, Bool.and_eq_true,
        decide_eq_true_eq] at h
      omega
    rw [readUnits_unitText hlt, pointUnits, if_pos hlt]
    rfl
  · next h =>
    have hvalid : n.isValidChar := by
      simp only [isHighSurrogate, isLowSurrogate, Bool.or_eq_true, Bool.and_eq_true,
        decide_eq_true_eq] at h
      simp only [Nat.isValidChar]
      omega
    have hchar : (Char.ofNat n).toNat = n := by
      rw [Char.ofNat, dif_pos hvalid]
      rfl
    rw [readUnits_charText, units, hchar]

/-- **Written code points give their units.** -/
theorem readUnits_pointTexts (rest : Text) : ∀ {ps : List Nat}, (∀ p ∈ ps, p < 0x110000) →
    readUnits (ps.flatMap pointText ++ '"' :: rest) = .ok (ps.flatMap pointUnits, rest)
  | [], _ => by rw [List.flatMap_nil, List.nil_append, readUnits]; rfl
  | p :: ps, h => by
    rw [List.flatMap_cons, List.append_assoc, readUnits_pointText (h p (.head _)),
      readUnits_pointTexts rest fun q hq => h q (.tail _ hq)]
    rfl

/-- The first unit of a code point completes a pair only if it is the second half itself. -/
theorem paired_head_pointUnits {n m : Nat} (hm : m < 0x110000) (r : List Nat) :
    (∀ k ∈ (pointUnits m ++ r).head?, ¬ Paired n k) ↔ ¬ Paired n m := by
  unfold pointUnits
  split
  · simp
  · have hn : ¬ Paired n m := by
      simp only [Paired, isHighSurrogate, isLowSurrogate, Bool.and_eq_true, decide_eq_true_eq]
      omega
    have hhead : ¬ Paired n (0xD800 + (m - 0x10000) / 0x400) := by
      simp only [Paired, isHighSurrogate, isLowSurrogate, Bool.and_eq_true, decide_eq_true_eq]
      omega
    simp [hn, hhead]

/-- **Code points come back exactly if no two of them make a pair.** -/
theorem points_pointUnits_iff : ∀ {ps : List Nat}, (∀ p ∈ ps, p < 0x110000) →
    (points (ps.flatMap pointUnits) = ps ↔ Unpaired ps)
  | [], _ => by simp [points, Unpaired]
  | [n], h => by
    have hpoints : points (pointUnits n ++ []) = n :: points [] :=
      points_pointUnits_append (h n (.head _)) nofun
    simpa [Unpaired, points] using hpoints
  | n :: m :: ps, h => by
    have ih : points ((m :: ps).flatMap pointUnits) = m :: ps ↔ Unpaired (m :: ps) :=
      points_pointUnits_iff fun q hq => h q (.tail _ hq)
    rw [List.flatMap_cons, Unpaired, List.isChain_cons_cons, ← Unpaired, ← ih]
    by_cases hpair : Paired n m
    · have hn : n < 0x10000 ∧ m < 0x10000 := by
        simp only [Paired, isHighSurrogate, isLowSurrogate, Bool.and_eq_true, decide_eq_true_eq] at hpair
        omega
      have hpoints : points (pointUnits n ++ (m :: ps).flatMap pointUnits) =
          (0x10000 + (n - 0xD800) * 0x400 + (m - 0xDC00)) :: points (ps.flatMap pointUnits) := by
        simp only [List.flatMap_cons, pointUnits, if_pos hn.1, if_pos hn.2, List.cons_append,
          List.nil_append, points]
        exact if_pos hpair
      simp only [hpoints, hpair, not_true_eq_false, false_and, iff_false, List.cons.injEq, not_and]
      omega
    · have hhead := (paired_head_pointUnits (h m (.tail _ (.head _))) (ps.flatMap pointUnits)).2 hpair
      rw [points_pointUnits_append (h n (.head _)) (by rwa [List.flatMap_cons])]
      simp [hpair]

end AgdaFrontEnd.Json
