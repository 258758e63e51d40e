import AgdaFrontEnd.Integer
import Mathlib.Data.Nat.Digits.Defs

/-!
# Numbers in decimal

* `Text.lt_pow_length_ofNat`, `Text.pow_length_ofNat_le`: the size of a number by its digits.
* `Text.ofNat_injective`, `Text.ofInt_injective`: different numbers are written differently.
* `Text.mem_ofInt`: an integer is written with digits and a minus sign.
-/

namespace AgdaFrontEnd.Text

theorem isDigit_of_mem_ofNat {n : Nat} {c : Char} (h : c ∈ ofNat n) : c.isDigit = true :=
  Nat.isDigit_of_mem_toDigits (by decide) (by decide) h

theorem ofNat_ne_nil (n : Nat) : ofNat n ≠ [] := Nat.toDigits_ne_nil

/-- A number is less than the power of ten with as many zeros as it has digits. -/
theorem lt_pow_length_ofNat (n : Nat) : n < 10 ^ (ofNat n).length :=
  (Nat.length_toDigits_le_iff (by decide) Nat.length_toDigits_pos).1 le_rfl

/-- A positive number reaches the power of ten that its first digit counts. -/
theorem pow_length_ofNat_le {n : Nat} (hn : 0 < n) : 10 ^ ((ofNat n).length - 1) ≤ n := by
  have hpos : 0 < (ofNat n).length := Nat.length_toDigits_pos
  by_contra hlt
  by_cases hone : (ofNat n).length - 1 = 0
  · rw [hone] at hlt
    omega
  · have hle := (Nat.length_toDigits_le_iff (by decide) (Nat.pos_of_ne_zero hone)).2 (not_le.1 hlt)
    have hlength : (Nat.toDigits 10 n).length = (ofNat n).length := rfl
    omega

theorem digitChar_ne_zero : ∀ n < 10, 0 < n → n.digitChar ≠ '0' := by decide

/-- A positive number does not start with a zero. -/
theorem exists_cons_ofNat {n : Nat} (hn : 0 < n) : ∃ c r, ofNat n = c :: r ∧ c ≠ '0' := by
  induction n using Nat.strongRecOn with
  | ind n ih =>
    by_cases hlt : n < 10
    · exact ⟨n.digitChar, [], Nat.toDigits_of_lt_base hlt, digitChar_ne_zero n hlt hn⟩
    · obtain ⟨c, r, hr, hc⟩ := ih (n / 10) (Nat.div_lt_self hn (by decide)) (by omega)
      refine ⟨c, r ++ [(n % 10).digitChar], ?_, hc⟩
      rw [ofNat, Nat.toDigits_of_base_le (by decide) (not_lt.1 hlt), ← ofNat, hr, List.cons_append]

theorem ofNat_injective {m n : Nat} (h : ofNat m = ofNat n) : m = n := by
  have hvalue := congrArg (Nat.ofDigitChars 10 · 0) h
  simpa only [ofNat, Nat.ofDigitChars_ten_toDigits] using hvalue

theorem minus_not_mem_ofNat (n : Nat) : '-' ∉ ofNat n := by
  intro h
  exact absurd (isDigit_of_mem_ofNat h) (by decide)

theorem ofInt_injective {m n : Int} (h : ofInt m = ofInt n) : m = n := by
  cases m with
  | ofNat m =>
    cases n with
    | ofNat n => rw [ofNat_injective h]
    | negSucc n =>
      have hm : '-' ∈ ofNat m := by
        rw [show ofNat m = '-' :: ofNat (n + 1) from h]
        exact .head _
      exact absurd hm (minus_not_mem_ofNat m)
  | negSucc m =>
    cases n with
    | ofNat n =>
      have hn : '-' ∈ ofNat n := by
        rw [← show '-' :: ofNat (m + 1) = ofNat n from h]
        exact .head _
      exact absurd hn (minus_not_mem_ofNat n)
    | negSucc n =>
      have hmn : m + 1 = n + 1 := ofNat_injective (List.cons.inj h).2
      rw [Nat.succ.inj hmn]

/-- An integer is written with digits and a minus sign. -/
theorem mem_ofInt {n : Int} {c : Char} (h : c ∈ ofInt n) : c = '-' ∨ c.isDigit = true := by
  cases n with
  | ofNat n => exact .inr (isDigit_of_mem_ofNat h)
  | negSucc n =>
    rcases List.mem_cons.1 h with rfl | h
    · exact .inl rfl
    · exact .inr (isDigit_of_mem_ofNat h)

end AgdaFrontEnd.Text
