import AgdaFrontEnd.Utf8

/-!
# Decoding what was encoded

* `Utf8.Decoder.feed_encodeChar`: the bytes of a character take the decoder from between characters to
  between characters, and give the character.
* `Utf8.decodeLossy_encode`: the bytes of a text decode to the text.
* `Utf8.decode_encode_of_isAscii`: the bytes of a text in ASCII are well-formed, and give the text.
-/

namespace AgdaFrontEnd.Utf8

/-! ## First bytes -/

theorem start_two : ∀ n < 32, 2 ≤ n → start (n + 192) = .more ⟨n, 1, 1, 0x80, 0xBF⟩ := by decide

/-- A character of three bytes is no surrogate and does not fit into two bytes. -/
theorem start_three : ∀ n < 16, start (n + 224) =
    .more ⟨n, 1, 2, if n = 0 then 0xA0 else 0x80, if n = 13 then 0x9F else 0xBF⟩ := by decide

/-- A character of four bytes lies in the range of characters and does not fit into three bytes. -/
theorem start_four : ∀ n < 5, start (n + 240) =
    .more ⟨n, 1, 3, if n = 0 then 0x90 else 0x80, if n = 4 then 0x8F else 0xBF⟩ := by decide

namespace Decoder

/-! ## Steps inside a character -/

theorem step_between_more {b : Nat} {p : Partial} (h : start b = .more p) :
    between.step b = ([], inside p) := by
  simp [step, first, h]

theorem step_last {p : Partial} {n : Nat} (howed : p.owed = 1) (hl : p.least ≤ n + 128)
    (hg : n + 128 ≤ p.greatest) :
    (inside p).step (n + 128) = ([Char.ofNat (p.bits * 64 + n)], between) := by
  simp [step, Partial.accepts, Partial.next, howed, hl, hg]

theorem step_owing {p : Partial} {n k : Nat} (howed : p.owed = k + 2) (hl : p.least ≤ n + 128)
    (hg : n + 128 ≤ p.greatest) : (inside p).step (n + 128) =
      ([], inside ⟨p.bits * 64 + n, p.read + 1, k + 1, 0x80, 0xBF⟩) := by
  simp [step, Partial.accepts, Partial.next, howed, hl, hg]

/-! ## Whole characters -/

theorem feed_cons (d : Decoder) {n : Nat} (h : n < 256) (bs : Bytes) :
    d.feed (UInt8.ofNat n :: bs) =
      ((d.step n).1 ++ ((d.step n).2.feed bs).1, ((d.step n).2.feed bs).2) := by
  have hn : (UInt8.ofNat n).toNat = n := by
    simp only [UInt8.toNat_ofNat']
    omega
  rw [feed, hn]

/-- The bytes of a character give the character. -/
theorem feed_encodeChar (c : Char) : between.feed (String.utf8EncodeChar c) = ([c], between) := by
  have hc : Char.ofNat c.val.toNat = c := Char.ofNat_toNat c
  have hvalid : c.val.toNat < 0xD800 ∨ 0xDFFF < c.val.toNat ∧ c.val.toNat < 0x110000 := c.valid
  unfold String.utf8EncodeChar
  generalize c.val.toNat = v at hc hvalid
  dsimp only
  split
  · rename_i h
    rw [feed_cons _ (by omega)]
    simp [step, first, start, h, hc, feed]
  · split
    · rename_i h₁ h₂
      have hbits : v / 64 % 32 * 64 + v % 64 = v := by omega
      rw [feed_cons _ (by omega), step_between_more (start_two _ (by omega) (by omega)),
        feed_cons _ (by omega), step_last rfl (by dsimp only; omega) (by dsimp only; omega)]
      simp [feed, hbits, hc]
    · split
      · rename_i h₁ h₂ h₃
        have hbits : (v / 4096 % 16 * 64 + v / 64 % 64) * 64 + v % 64 = v := by omega
        rw [feed_cons _ (by omega), step_between_more (start_three _ (by omega)),
          feed_cons _ (by omega), step_owing rfl (by dsimp only; split <;> omega)
            (by dsimp only; split <;> omega),
          feed_cons _ (by omega), step_last rfl (by dsimp only; omega) (by dsimp only; omega)]
        simp [feed, hbits, hc]
      · rename_i h₁ h₂ h₃
        have hbits : ((v / 262144 % 8 * 64 + v / 4096 % 64) * 64 + v / 64 % 64) * 64 + v % 64 = v := by
          omega
        rw [feed_cons _ (by omega), step_between_more (start_four _ (by omega)),
          feed_cons _ (by omega), step_owing rfl (by dsimp only; split <;> omega)
            (by dsimp only; split <;> omega),
          feed_cons _ (by omega), step_owing rfl (by dsimp only; omega) (by dsimp only; omega),
          feed_cons _ (by omega), step_last rfl (by dsimp only; omega) (by dsimp only; omega)]
        simp [feed, hbits, hc]

theorem feed_encode : ∀ t : Text, between.feed (encode t) = (t, between)
  | [] => rfl
  | c :: t => by
    have ih := feed_encode t
    have hcons : encode (c :: t) = String.utf8EncodeChar c ++ encode t := List.flatMap_cons
    rw [hcons, feed_append, feed_encodeChar]
    dsimp only
    rw [ih]
    rfl

end Decoder

/-- **The bytes of a text decode to the text.** -/
theorem decodeLossy_encode (t : Text) : decodeLossy (encode t) = t := by
  rw [decodeLossy, Decoder.feed_encode]
  exact List.append_nil t

/-! ## ASCII -/

/-- The character is one of ASCII. -/
def IsAscii (c : Char) : Prop := c.toNat < 0x80

instance (c : Char) : Decidable (IsAscii c) := inferInstanceAs (Decidable (_ < _))

theorem IsAscii.encodeChar_eq {c : Char} (h : IsAscii c) :
    String.utf8EncodeChar c = [UInt8.ofNat c.toNat] := by
  have hc : c.val.toNat ≤ 0x7F := Nat.le_of_lt_succ h
  rw [String.utf8EncodeChar, if_pos hc]
  rfl

theorem IsAscii.start_eq {c : Char} (h : IsAscii c) : start (UInt8.ofNat c.toNat).toNat = .char c := by
  have hc : c.toNat ≤ 0x7F := Nat.le_of_lt_succ h
  have hbyte : (UInt8.ofNat c.toNat).toNat = c.toNat := by
    simp only [UInt8.toNat_ofNat']
    omega
  rw [hbyte, start, if_pos hc, Char.ofNat_toNat]

theorem decodeFrom_encode_of_isAscii : ∀ {t : Text} (position : Nat), (∀ c ∈ t, IsAscii c) →
    decodeFrom position none (encode t) = .ok t
  | [], _, _ => rfl
  | c :: t, position, h => by
    have hc : IsAscii c := h c (.head _)
    have hcons : encode (c :: t) = UInt8.ofNat c.toNat :: encode t := by
      rw [encode, List.flatMap_cons, hc.encodeChar_eq]
      rfl
    have hrest := decodeFrom_encode_of_isAscii (position + 1) fun d hd => h d (.tail _ hd)
    rw [hcons, decodeFrom, hc.start_eq]
    exact congrArg (Except.map (c :: ·)) hrest

/-- **The bytes of a text in ASCII** are well-formed, and give the text. -/
theorem decode_encode_of_isAscii {t : Text} (h : ∀ c ∈ t, IsAscii c) : decode (encode t) = .ok t :=
  decodeFrom_encode_of_isAscii 0 h

end AgdaFrontEnd.Utf8
