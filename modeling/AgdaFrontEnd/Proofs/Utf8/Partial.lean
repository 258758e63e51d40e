import AgdaFrontEnd.Proofs.Utf8
import Mathlib.Algebra.GroupWithZero.Nat
import Mathlib.Data.List.Induction
import Mathlib.Data.List.Infix

/-!
# Unfinished characters

What the decoder knows inside a character tells which characters can still come of it: it accepts
a byte just if the bytes read so far, with this one, begin a character.

* `Utf8.Begins`: bytes that are the first ones of a character.
* `Utf8.Partial.Expects`: the characters that can still come of a partial one.
* `Utf8.Reads`: the bytes that lead to a partial character.
* `Utf8.Reads.means`: what such bytes are the beginning of.
* `Utf8.Reads.last`, `Utf8.Reads.not_begins`: the byte that ends a character, and one that is refused.
-/

namespace AgdaFrontEnd.Utf8

/-! ## How characters are written -/

/-- The last `k` bytes of a character with the number `n`, six bits in each. -/
def tail : (k : Nat) → (n : Nat) → Bytes
  | 0, _ => []
  | k + 1, n => UInt8.ofNat (n / 64 ^ k % 64 + 128) :: tail k n

theorem length_tail (n : Nat) : ∀ k : Nat, (tail k n).length = k
  | 0 => rfl
  | k + 1 => congrArg (· + 1) (length_tail n k)

theorem toNat_ofNat {n : Nat} (h : n.isValidChar) : (Char.ofNat n).toNat = n := by
  unfold Char.ofNat
  rw [dif_pos h]
  rfl

/-- A character is written in one to four bytes, and the first one tells in how many. -/
theorem encodeChar_eq (c : Char) : String.utf8EncodeChar c =
    if c.toNat < 0x80 then [UInt8.ofNat c.toNat]
    else if c.toNat < 0x800 then UInt8.ofNat (c.toNat / 64 + 0xC0) :: tail 1 c.toNat
    else if c.toNat < 0x10000 then UInt8.ofNat (c.toNat / 4096 + 0xE0) :: tail 2 c.toNat
    else UInt8.ofNat (c.toNat / 262144 + 0xF0) :: tail 3 c.toNat := by
  have hvalid : c.toNat < 0xD800 ∨ 0xDFFF < c.toNat ∧ c.toNat < 0x110000 := c.valid
  have hval : c.val.toNat = c.toNat := rfl
  unfold String.utf8EncodeChar
  rw [hval]
  generalize c.toNat = n at hvalid
  dsimp only
  by_cases h₁ : n < 0x80
  · rw [if_pos (by omega), if_pos h₁]
  · rw [if_neg (by omega), if_neg h₁]
    by_cases h₂ : n < 0x800
    · have hlead : n / 64 % 32 = n / 64 := by omega
      rw [if_pos (by omega), if_pos h₂, hlead]
      simp [tail]
    · rw [if_neg (by omega), if_neg h₂]
      by_cases h₃ : n < 0x10000
      · have hlead : n / 4096 % 16 = n / 4096 := by omega
        rw [if_pos (by omega), if_pos h₃, hlead]
        simp [tail]
      · have hlead : n / 262144 % 8 = n / 262144 := by omega
        rw [if_neg (by omega), if_neg h₃, hlead]
        simp [tail]

theorem encodeChar_ne_nil (c : Char) : String.utf8EncodeChar c ≠ [] := by
  rw [encodeChar_eq]
  split_ifs <;> exact List.cons_ne_nil _ _

/-- No character is written as the beginning of another one. -/
theorem eq_of_encodeChar_begins {c c' : Char}
    (h : String.utf8EncodeChar c <+: String.utf8EncodeChar c') : c = c' := by
  obtain ⟨r, hr⟩ := h
  have hfeed := Decoder.feed_encodeChar c'
  rw [← hr, Decoder.feed_append, Decoder.feed_encodeChar] at hfeed
  exact (List.cons.inj (Prod.mk.inj hfeed).1).1

/-- The bytes are the first ones of a character, or all of them. -/
def Begins (q : Bytes) : Prop := ∃ c, q <+: String.utf8EncodeChar c

theorem Begins.of_prefix {q r : Bytes} (h : Begins r) (hq : q <+: r) : Begins q := by
  obtain ⟨c, hc⟩ := h
  exact ⟨c, hq.trans hc⟩

/-! ## First bytes -/

/-- The three forms of first bytes that more bytes must follow. -/
theorem start_more_cases {b : Nat} {p : Partial} (h : start b = .more p) :
    (p.owed = 1 ∧ b = p.bits + 0xC0 ∧ 2 ≤ p.bits ∧ p.bits < 32 ∧
      p.least = 0x80 ∧ p.greatest = 0xBF) ∨
    (p.owed = 2 ∧ b = p.bits + 0xE0 ∧ p.bits < 16 ∧
      (p.bits = 0 → p.least = 0xA0) ∧ (p.bits ≠ 0 → p.least = 0x80) ∧
      (p.bits = 13 → p.greatest = 0x9F) ∧ (p.bits ≠ 13 → p.greatest = 0xBF)) ∨
    (p.owed = 3 ∧ b = p.bits + 0xF0 ∧ p.bits < 5 ∧
      (p.bits = 0 → p.least = 0x90) ∧ (p.bits ≠ 0 → p.least = 0x80) ∧
      (p.bits = 4 → p.greatest = 0x8F) ∧ (p.bits ≠ 4 → p.greatest = 0xBF)) := by
  unfold start at h
  split_ifs at h <;> injection h with h <;> subst h <;> dsimp only <;> omega

/-- The number of a character that is written with this first byte. -/
theorem toNat_of_prefix {b : UInt8} {c : Char} (h : [b] <+: String.utf8EncodeChar c) :
    (c.toNat < 0x80 ∧ b.toNat = c.toNat) ∨
    (0x80 ≤ c.toNat ∧ c.toNat < 0x800 ∧ b.toNat = c.toNat / 64 + 0xC0) ∨
    (0x800 ≤ c.toNat ∧ c.toNat < 0x10000 ∧ b.toNat = c.toNat / 4096 + 0xE0) ∨
    (0x10000 ≤ c.toNat ∧ c.toNat < 0x110000 ∧ b.toNat = c.toNat / 262144 + 0xF0) := by
  have hvalid : c.toNat < 0xD800 ∨ 0xDFFF < c.toNat ∧ c.toNat < 0x110000 := c.valid
  rw [encodeChar_eq] at h
  split_ifs at h
  all_goals
    obtain ⟨rfl, -⟩ := List.cons_prefix_cons.1 h
    simp only [UInt8.toNat_ofNat']
    omega

/-- A byte that is the first one of no character. -/
theorem not_begins_of_invalid {b : UInt8} (h : start b.toNat = .invalid) : ¬ Begins [b] := by
  rintro ⟨c, hc⟩
  have hhead := toNat_of_prefix hc
  have hvalid : c.toNat < 0xD800 ∨ 0xDFFF < c.toNat ∧ c.toNat < 0x110000 := c.valid
  unfold start at h
  split_ifs at h
  omega

/-- A byte that is a character of its own. -/
theorem encodeChar_of_start {b : UInt8} {c : Char} (h : start b.toNat = .char c) :
    String.utf8EncodeChar c = [b] := by
  have hof : UInt8.ofNat b.toNat = b := UInt8.ofNat_toNat
  unfold start at h
  split_ifs at h with hb
  injection h with h
  subst h
  have hn : (Char.ofNat b.toNat).toNat = b.toNat := toNat_ofNat (by unfold Nat.isValidChar; omega)
  rw [encodeChar_eq, hn, if_pos (by omega), hof]

/-! ## Partial characters -/

/-- The character with the number `n` can still come of the partial one. -/
def Partial.Expects (p : Partial) (n : Nat) : Prop :=
  n / 64 ^ p.owed = p.bits ∧ p.least ≤ n / 64 ^ (p.owed - 1) % 64 + 128 ∧
    n / 64 ^ (p.owed - 1) % 64 + 128 ≤ p.greatest

/-- What a partial character means: the bytes read so far begin the characters that are expected, and
no other ones. -/
structure Partial.Means (p : Partial) (q : Bytes) : Prop where
  owed_pos : 0 < p.owed
  le_least : 0x80 ≤ p.least
  greatest_le : p.greatest ≤ 0xBF
  isValid : ∀ n, p.Expects n → n.isValidChar
  spelled : ∀ c : Char, p.Expects c.toNat → String.utf8EncodeChar c = q ++ tail p.owed c.toNat
  expects : ∀ c : Char, q <+: String.utf8EncodeChar c → p.Expects c.toNat
  exists_expects : ∃ n, p.Expects n

/-- What is known behind the first byte of a character. -/
theorem Partial.means_start {b : UInt8} {p : Partial} (h : start b.toNat = .more p) :
    p.Means [b] := by
  obtain ⟨bits, _, owed, least, greatest⟩ := p
  have hof : UInt8.ofNat b.toNat = b := UInt8.ofNat_toNat
  have hforms := start_more_cases h
  dsimp only at hforms
  constructor
  · dsimp only
    omega
  · dsimp only
    omega
  · dsimp only
    omega
  · intro n hn
    unfold Expects at hn
    unfold Nat.isValidChar
    rcases hforms with ⟨rfl, hb, hf⟩ | ⟨rfl, hb, hlt, hf⟩ | ⟨rfl, hb, hlt, hf⟩
    all_goals
      simp only [Nat.reduceSub, Nat.reducePow] at hn
      omega
  · intro c hc
    unfold Expects at hc
    dsimp only at hc ⊢
    rw [encodeChar_eq]
    rcases hforms with ⟨rfl, hb, hf⟩ | ⟨rfl, hb, hlt, hf⟩ | ⟨rfl, hb, hlt, hf⟩
    · simp only [Nat.reduceSub, Nat.reducePow] at hc
      have hlead : c.toNat / 64 + 0xC0 = b.toNat := by omega
      rw [if_neg (by omega), if_pos (by omega), hlead, hof]
      rfl
    · simp only [Nat.reduceSub, Nat.reducePow] at hc
      have hlead : c.toNat / 4096 + 0xE0 = b.toNat := by omega
      rw [if_neg (by omega), if_neg (by omega), if_pos (by omega), hlead, hof]
      rfl
    · simp only [Nat.reduceSub, Nat.reducePow] at hc
      have hlead : c.toNat / 262144 + 0xF0 = b.toNat := by omega
      rw [if_neg (by omega), if_neg (by omega), if_neg (by omega), hlead, hof]
      rfl
  · intro c hc
    have hhead := toNat_of_prefix hc
    have hvalid : c.toNat < 0xD800 ∨ 0xDFFF < c.toNat ∧ c.toNat < 0x110000 := c.valid
    unfold Expects
    rcases hforms with ⟨rfl, hb, hf⟩ | ⟨rfl, hb, hlt, hf⟩ | ⟨rfl, hb, hlt, hf⟩
    all_goals
      simp only [Nat.reduceSub, Nat.reducePow]
      omega
  · unfold Expects
    dsimp only
    rcases hforms with ⟨rfl, hb, hf⟩ | ⟨rfl, hb, hlt, hf⟩ | ⟨rfl, hb, hlt, hf⟩
    · refine ⟨bits * 64, ?_⟩
      simp only [Nat.reduceSub, Nat.reducePow]
      omega
    · refine ⟨bits * 4096 + (least - 128) * 64, ?_⟩
      simp only [Nat.reduceSub, Nat.reducePow]
      omega
    · refine ⟨bits * 262144 + (least - 128) * 4096, ?_⟩
      simp only [Nat.reduceSub, Nat.reducePow]
      omega

/-! ## Further bytes -/

theorem div_pow_succ (n k : Nat) : n / 64 ^ (k + 1) = n / 64 ^ k / 64 := by
  rw [Nat.pow_succ, Nat.div_div_eq_div_mul]

theorem Partial.accepts_iff {p : Partial} {b : Nat} :
    p.accepts b = true ↔ p.least ≤ b ∧ b ≤ p.greatest := by
  simp [accepts]

/-- The next byte is the next six bits of the characters that are still expected. -/
theorem Partial.expects_next {p p' : Partial} {q : Bytes} {b : Nat} (hp : p.Means q)
    (ha : p.accepts b = true) (h : p.next b = .inr p') :
    0 < p'.owed ∧ p.owed = p'.owed + 1 ∧ p'.least = 0x80 ∧ p'.greatest = 0xBF ∧
      ∀ n, p'.Expects n ↔ p.Expects n ∧ n / 64 ^ (p.owed - 1) % 64 + 128 = b := by
  have hpos := hp.owed_pos
  have hleast := hp.le_least
  have hgreatest := hp.greatest_le
  rw [accepts_iff] at ha
  unfold next at h
  dsimp only at h
  split_ifs at h with howed
  injection h with h
  subst h
  refine ⟨by dsimp only; omega, by dsimp only; omega, rfl, rfl, fun n => ?_⟩
  obtain ⟨k, hk⟩ : ∃ k, p.owed = k + 2 := ⟨p.owed - 2, by omega⟩
  unfold Expects
  dsimp only
  rw [hk, show k + 2 - 1 = k + 1 from rfl, show k + 1 - 1 = k from rfl, div_pow_succ n (k + 1)]
  omega

/-- The character that the last byte ends. -/
theorem Partial.expects_last {p : Partial} {q : Bytes} {b : Nat} {c : Char} (hp : p.Means q)
    (ha : p.accepts b = true) (h : p.next b = .inl c) :
    p.owed = 1 ∧ p.Expects c.toNat ∧ c.toNat % 64 + 128 = b := by
  have hleast := hp.le_least
  have hgreatest := hp.greatest_le
  rw [accepts_iff] at ha
  unfold next at h
  dsimp only at h
  split_ifs at h with howed
  injection h with h
  have hexpects : p.Expects (p.bits * 64 + (b - 0x80)) := by
    unfold Expects
    rw [howed]
    simp only [Nat.reduceSub, Nat.reducePow]
    omega
  have hn : c.toNat = p.bits * 64 + (b - 0x80) := h ▸ toNat_ofNat (hp.isValid _ hexpects)
  exact ⟨howed, hn ▸ hexpects, by omega⟩

/-- The byte behind those that were read begins a character just if it is the next six bits of one that is
expected. -/
theorem Partial.Means.prefix_iff {p : Partial} {q : Bytes} (hp : p.Means q) (b : UInt8) (c : Char) :
    q ++ [b] <+: String.utf8EncodeChar c ↔
      p.Expects c.toNat ∧ c.toNat / 64 ^ (p.owed - 1) % 64 + 128 = b.toNat := by
  have hdigit : ∀ n, n % 64 + 128 = b.toNat ↔ b = UInt8.ofNat (n % 64 + 128) := by
    intro n
    rw [← UInt8.toNat_inj, UInt8.toNat_ofNat']
    omega
  obtain ⟨k, hk⟩ : ∃ k, p.owed = k + 1 := ⟨p.owed - 1, by have := hp.owed_pos; omega⟩
  have hspelled : p.Expects c.toNat → (q ++ [b] <+: String.utf8EncodeChar c ↔
      c.toNat / 64 ^ (p.owed - 1) % 64 + 128 = b.toNat) := by
    intro hc
    rw [hp.spelled c hc, List.prefix_append_right_inj, hk, tail, List.cons_prefix_cons, hdigit]
    simp
  constructor
  · intro h
    have hc := hp.expects c ((List.prefix_append q [b]).trans h)
    exact ⟨hc, (hspelled hc).1 h⟩
  · rintro ⟨hc, hb⟩
    exact (hspelled hc).2 hb

/-- What is known behind one more byte. -/
theorem Partial.Means.next {p p' : Partial} {q : Bytes} {b : UInt8} (hp : p.Means q)
    (ha : p.accepts b.toNat = true) (h : p.next b.toNat = .inr p') : p'.Means (q ++ [b]) := by
  obtain ⟨hpos, howed, hleast, hgreatest, hexpects⟩ := expects_next hp ha h
  have hbegins : ∀ c : Char, q ++ [b] <+: String.utf8EncodeChar c ↔ p'.Expects c.toNat := by
    intro c
    rw [hexpects, hp.prefix_iff]
  refine ⟨hpos, by omega, by omega, ?_, ?_, fun c hc => (hbegins c).1 hc, ?_⟩
  · intro n hn
    exact hp.isValid n ((hexpects n).1 hn).1
  · intro c hc
    obtain ⟨hc', hb⟩ := (hexpects c.toNat).1 hc
    have hof : UInt8.ofNat b.toNat = b := UInt8.ofNat_toNat
    rw [howed, Nat.add_sub_cancel] at hb
    rw [hp.spelled c hc', howed, tail, hb, hof, List.append_assoc]
    rfl
  · refine ⟨p'.bits * 64 ^ p'.owed, ?_⟩
    unfold Expects
    rw [Nat.mul_div_cancel _ (Nat.pow_pos (by decide))]
    omega

/-! ## Bytes that were read -/

/-- The bytes lead from between characters into a partial one. -/
inductive Reads : Bytes → Partial → Prop
  | start {b : UInt8} {p : Partial} (h : start b.toNat = .more p) : Reads [b] p
  | next {q : Bytes} {b : UInt8} {p p' : Partial} (hq : Reads q p) (ha : p.accepts b.toNat = true)
    (h : p.next b.toNat = .inr p') : Reads (q ++ [b]) p'

namespace Reads

variable {q : Bytes} {b : UInt8} {p : Partial}

/-- **What bytes are the beginning of** is told by the partial character that they lead to. -/
theorem means (h : Reads q p) : p.Means q := by
  induction h with
  | start h => exact Partial.means_start h
  | next _ ha h ih => exact ih.next ha h

theorem ne_nil (h : Reads q p) : q ≠ [] := by
  cases h with
  | start h => exact List.cons_ne_nil _ _
  | next _ _ _ => exact List.append_ne_nil_of_right_ne_nil _ (List.cons_ne_nil _ _)

theorem length_eq (h : Reads q p) : p.read = q.length := by
  induction h with
  | start h =>
    unfold Utf8.start at h
    split_ifs at h <;> injection h with h <;> subst h <;> rfl
  | next _ _ h ih =>
    unfold Partial.next at h
    dsimp only at h
    split_ifs at h
    injection h with h
    subst h
    dsimp only
    rw [ih, List.length_append]
    rfl

/-- Some character is expected. -/
theorem exists_char (h : Reads q p) : ∃ c : Char, p.Expects c.toNat := by
  obtain ⟨n, hn⟩ := h.means.exists_expects
  exact ⟨Char.ofNat n, (toNat_ofNat (h.means.isValid n hn)).symm ▸ hn⟩

/-- The bytes are the beginning of a character, but not all of it. -/
theorem exists_rest (h : Reads q p) : ∃ c r, r ≠ [] ∧ String.utf8EncodeChar c = q ++ r := by
  obtain ⟨c, hc⟩ := h.exists_char
  refine ⟨c, tail p.owed c.toNat, fun hnil => ?_, h.means.spelled c hc⟩
  have hlength := length_tail c.toNat p.owed
  have hpos := h.means.owed_pos
  rw [hnil, List.length_nil] at hlength
  omega

theorem begins (h : Reads q p) : Begins q := by
  obtain ⟨c, r, -, hc⟩ := h.exists_rest
  exact ⟨c, r, hc.symm⟩

/-- No character is complete with the bytes. -/
theorem not_prefix (h : Reads q p) (c : Char) : ¬ String.utf8EncodeChar c <+: q := by
  intro hc
  obtain ⟨c', r, hr, hc'⟩ := h.exists_rest
  obtain rfl := eq_of_encodeChar_begins (hc.trans ⟨r, hc'.symm⟩)
  have hlength := hc.length_le
  rw [hc', List.length_append] at hlength
  exact hr (List.length_eq_zero_iff.1 (by omega))

/-- The byte that ends a character. -/
theorem last (h : Reads q p) (ha : p.accepts b.toNat = true) {c : Char}
    (hn : p.next b.toNat = .inl c) : String.utf8EncodeChar c = q ++ [b] := by
  have hof : UInt8.ofNat b.toNat = b := UInt8.ofNat_toNat
  obtain ⟨howed, hc, hb⟩ := Partial.expects_last h.means ha hn
  rw [h.means.spelled c hc, howed, tail, Nat.pow_zero, Nat.div_one, hb, hof]
  rfl

/-- **A byte is refused** if no character begins with it and those before it. -/
theorem not_begins (h : Reads q p) (ha : p.accepts b.toNat ≠ true) : ¬ Begins (q ++ [b]) := by
  rintro ⟨c, hc⟩
  obtain ⟨⟨-, hleast, hgreatest⟩, hb⟩ := (h.means.prefix_iff b c).1 hc
  rw [hb] at hleast hgreatest
  exact ha (Partial.accepts_iff.2 ⟨hleast, hgreatest⟩)

end Reads

/-- A character is not complete before its last byte. -/
theorem ne_of_rest {c c' : Char} {q r : Bytes} (hr : r ≠ []) (h : String.utf8EncodeChar c = q ++ r) :
    String.utf8EncodeChar c' ≠ q := by
  rintro rfl
  obtain rfl := eq_of_encodeChar_begins ⟨r, h.symm⟩
  exact hr (List.append_right_eq_self.1 h.symm)

/-- **All beginnings of characters are read.** -/
theorem exists_reads {c : Char} {q r : Bytes} (hr : r ≠ []) (hq : q ≠ [])
    (h : String.utf8EncodeChar c = q ++ r) : ∃ p, Reads q p := by
  induction q using List.reverseRecOn generalizing r with
  | nil => exact absurd rfl hq
  | append_singleton q b ih =>
    have hbegins : Begins (q ++ [b]) := ⟨c, r, h.symm⟩
    by_cases hnil : q = []
    · subst hnil
      cases hs : start b.toNat with
      | char c' => exact absurd (encodeChar_of_start hs) (ne_of_rest hr h)
      | more p => exact ⟨p, .start hs⟩
      | invalid => exact absurd hbegins (not_begins_of_invalid hs)
    · obtain ⟨p, hp⟩ := ih (List.cons_ne_nil b r) hnil (by rw [h, List.append_assoc]; rfl)
      have ha : p.accepts b.toNat = true := by
        by_contra ha
        exact hp.not_begins ha hbegins
      cases hn : p.next b.toNat with
      | inl c' => exact absurd (hp.last ha hn) (ne_of_rest hr h)
      | inr p' => exact ⟨p', .next hp ha hn⟩

end AgdaFrontEnd.Utf8
