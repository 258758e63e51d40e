import AgdaFrontEnd.Binary64
import AgdaFrontEnd.Proofs.Text.Decimal
import Mathlib.Algebra.Order.Field.Power
import Mathlib.Algebra.Order.Field.Rat
import Mathlib.Tactic.FieldSimp
import Mathlib.Tactic.GCongr
import Mathlib.Tactic.Linarith
import Mathlib.Tactic.NormNum
import Mathlib.Tactic.Positivity
import Mathlib.Tactic.Ring

/-!
# Rounding to doubles

* `Binary64.IsFinite`: the finite doubles that there are.
* `Binary64.RoundsTo`: the numbers that round to a double.
-/

namespace AgdaFrontEnd.Binary64

/-! ## Fractions -/

theorem scale_eq {base : Nat} (hb : 0 < base) (num den : Nat) (power : Int) :
    ((scale base num den power).1 : ℚ) / (scale base num den power).2 =
      num / den * (base : ℚ) ^ power := by
  cases power with
  | ofNat k =>
    simp only [scale, Nat.pow_eq, Nat.cast_mul, Nat.cast_pow, Int.ofNat_eq_natCast, zpow_natCast]
    ring
  | negSucc k =>
    simp only [scale, Nat.pow_eq, Nat.cast_mul, Nat.cast_pow, zpow_negSucc]
    field_simp

theorem scale_den_pos {base den : Nat} (hb : 0 < base) (hd : 0 < den) (num : Nat) (power : Int) :
    0 < (scale base num den power).2 := by
  cases power with
  | ofNat k => exact hd
  | negSucc k => exact Nat.mul_pos hd (Nat.pow_pos hb)

/-! ## Rounding a quotient -/

/-- A quotient within a half of an integer is rounded to it; exactly a half, if it is even. -/
theorem roundQuotient_eq {num den k : Nat} (hlow : 2 * (k * den) ≤ 2 * num + den)
    (hhigh : 2 * num ≤ 2 * (k * den) + den)
    (htie : 2 * (k * den) = 2 * num + den ∨ 2 * num = 2 * (k * den) + den → k % 2 = 0)
    (hd : 0 < den) : roundQuotient num den = k := by
  have hdiv : den * (num / den) + num % den = num := Nat.div_add_mod num den
  have hrem : num % den < den := Nat.mod_lt num hd
  obtain ⟨q, hq⟩ : ∃ q, num / den = q := ⟨_, rfl⟩
  obtain ⟨r, hr⟩ : ∃ r, num % den = r := ⟨_, rfl⟩
  unfold roundQuotient
  rw [hq, hr] at hdiv ⊢
  rw [hr] at hrem
  -- the integer is the quotient or the one after it
  have hle : q ≤ k := by
    by_contra hlt
    have hmul : den * (k + 1) ≤ den * q := Nat.mul_le_mul_left den (by omega)
    rw [Nat.mul_comm k, Nat.mul_add] at *
    omega
  have hge : k ≤ q + 1 := by
    by_contra hlt
    have hmul : den * (q + 2) ≤ den * k := Nat.mul_le_mul_left den (by omega)
    rw [Nat.mul_comm k, Nat.mul_add] at *
    omega
  dsimp only
  rcases Nat.eq_or_lt_of_le hle with rfl | hlt
  · rw [Nat.mul_comm q] at *
    have hr2 : 2 * r ≤ den := by omega
    rw [if_neg]
    simp only [Bool.or_eq_true, decide_eq_true_eq, Bool.and_eq_true, beq_iff_eq]
    rintro (h | ⟨h, hodd⟩)
    · omega
    · have := htie (.inr (by omega))
      omega
  · obtain rfl : k = q + 1 := by omega
    rw [Nat.mul_comm (q + 1), Nat.mul_add] at *
    rw [if_pos]
    simp only [Bool.or_eq_true, decide_eq_true_eq, Bool.and_eq_true, beq_iff_eq]
    by_cases h : den < 2 * r
    · exact .inl h
    · have := htie (.inl (by omega))
      exact .inr ⟨by omega, by omega⟩

/-! ## The exponent of a fraction -/

theorem leastFull_eq : (leastFull : ℚ) = 2 ^ (52 : ℤ) := by
  norm_num [leastFull]

section Fractions

variable {num den : Nat} (hn : 0 < num) (hd : 0 < den)

include hd in
theorem fits_iff (e : Int) : fits num den e = true ↔ (2 : ℚ) ^ (52 + e) ≤ num / den := by
  have hpos : 0 < ((scale 2 num den (-e)).2 : ℚ) :=
    Nat.cast_pos.2 (scale_den_pos (by decide) hd num (-e))
  have hscale := scale_eq (show 0 < 2 by decide) num den (-e)
  have he : (0 : ℚ) < 2 ^ e := by positivity
  rw [fits, decide_eq_true_eq, ← Nat.cast_le (α := ℚ), Nat.cast_mul, leastFull_eq, mul_comm,
    ← le_div_iff₀ hpos, hscale, Nat.cast_ofNat, zpow_neg, ← div_eq_mul_inv, le_div_iff₀ he,
    ← zpow_add₀ (by norm_num)]

include hn hd

/-- The number of bits of its two sides tells the size of a fraction up to a factor of two. -/
theorem log2_bounds : (2 : ℚ) ^ ((num.log2 : ℤ) - den.log2 - 1) < num / den ∧
    (num : ℚ) / den < 2 ^ ((num.log2 : ℤ) - den.log2 + 1) := by
  have hden : (0 : ℚ) < den := Nat.cast_pos.2 hd
  have hnum_low : (2 : ℚ) ^ (num.log2 : ℤ) ≤ num := by
    exact_mod_cast Nat.log2_self_le hn.ne'
  have hnum_high : (num : ℚ) < 2 ^ ((num.log2 : ℤ) + 1) := by
    exact_mod_cast Nat.lt_log2_self (n := num)
  have hden_low : (2 : ℚ) ^ (den.log2 : ℤ) ≤ den := by
    exact_mod_cast Nat.log2_self_le hd.ne'
  have hden_high : (den : ℚ) < 2 ^ ((den.log2 : ℤ) + 1) := by
    exact_mod_cast Nat.lt_log2_self (n := den)
  constructor
  · rw [lt_div_iff₀ hden]
    calc (2 : ℚ) ^ ((num.log2 : ℤ) - den.log2 - 1) * den
        < 2 ^ ((num.log2 : ℤ) - den.log2 - 1) * 2 ^ ((den.log2 : ℤ) + 1) := by gcongr
      _ = 2 ^ (num.log2 : ℤ) := by rw [← zpow_add₀ (by norm_num)]; congr 1; ring
      _ ≤ num := hnum_low
  · rw [div_lt_iff₀ hden]
    calc (num : ℚ) < 2 ^ ((num.log2 : ℤ) + 1) := hnum_high
      _ = 2 ^ ((num.log2 : ℤ) - den.log2 + 1) * 2 ^ (den.log2 : ℤ) := by
        rw [← zpow_add₀ (by norm_num)]; congr 1; ring
      _ ≤ 2 ^ ((num.log2 : ℤ) - den.log2 + 1) * den := by gcongr

/-- **At its exponent, the mantissa of a fraction has full length.** -/
theorem fullExponent_spec : (2 : ℚ) ^ (52 + fullExponent num den) ≤ num / den ∧
    (num : ℚ) / den < 2 ^ (53 + fullExponent num den) := by
  obtain ⟨hlow, hhigh⟩ := log2_bounds hn hd
  unfold fullExponent
  dsimp only
  split
  · rename_i h
    refine ⟨(fits_iff hd _).1 h, hhigh.trans_eq ?_⟩
    congr 1
    ring
  · rename_i h
    rw [fits_iff hd, not_le] at h
    constructor
    · refine le_of_eq_of_le ?_ hlow.le
      congr 1
      ring
    · refine h.trans_eq ?_
      congr 1
      ring

end Fractions

/-! ## Numbers that round to a double -/

/-- Mantissa and exponent of a finite double: the mantissa has full length unless the exponent is the
least one. -/
structure IsFinite (m : Nat) (e : Int) : Prop where
  short : m < 2 * leastFull
  least : leastExponent ≤ e
  greatest : e ≤ greatestExponent
  full : e ≠ leastExponent → leastFull ≤ m

instance (m : Nat) (e : Int) : Decidable (IsFinite m e) :=
  decidable_of_iff (m < 2 * leastFull ∧ leastExponent ≤ e ∧ e ≤ greatestExponent ∧
      (e ≠ leastExponent → leastFull ≤ m))
    ⟨fun ⟨hs, hl, hg, hf⟩ => ⟨hs, hl, hg, hf⟩, fun ⟨hs, hl, hg, hf⟩ => ⟨hs, hl, hg, hf⟩⟩

/-- The representations of doubles. -/
def IsDouble : Binary64 → Prop
  | .finite _ m e => IsFinite m e
  | _ => True

instance : (x : Binary64) → Decidable x.IsDouble
  | .finite _ m e => inferInstanceAs (Decidable (IsFinite m e))
  | .infinite _ => .isTrue trivial
  | .nan => .isTrue trivial

/-- Half the way from a double to its lower neighbour, in units of its last place; the neighbour below
a power of two is twice as near. -/
def halfBelow (m : Nat) (e : Int) : ℚ := if m = leastFull ∧ leastExponent < e then 1 / 4 else 1 / 2

/-- The number is not farther from a double than half the way to its neighbours, and nearer unless the
mantissa is even. -/
structure RoundsTo (m : Nat) (e : Int) (x : ℚ) : Prop where
  low : (m - halfBelow m e) * 2 ^ e ≤ x
  high : x ≤ (m + 1 / 2) * 2 ^ e
  low_lt : m % 2 = 1 → (m - halfBelow m e) * 2 ^ e < x
  lt_high : m % 2 = 1 → x < (m + 1 / 2) * 2 ^ e

theorem halfBelow_le (m : Nat) (e : Int) : halfBelow m e ≤ 1 / 2 := by
  unfold halfBelow
  split <;> norm_num

/-- A fraction of powers that lies within half a unit of an integer is rounded to it. -/
theorem round_scale {num den k : Nat} (hd : 0 < den) (e : Int)
    (hlow : ((k : ℚ) - 1 / 2) * 2 ^ e ≤ num / den) (hhigh : (num : ℚ) / den ≤ (k + 1 / 2) * 2 ^ e)
    (hodd : k % 2 = 1 → ((k : ℚ) - 1 / 2) * 2 ^ e < num / den ∧ (num : ℚ) / den < (k + 1 / 2) * 2 ^ e) :
    roundQuotient (scale 2 num den (-e)).1 (scale 2 num den (-e)).2 = k := by
  have hpos := scale_den_pos (show 0 < 2 by decide) hd num (-e)
  have hscale := scale_eq (show 0 < 2 by decide) num den (-e)
  generalize (scale 2 num den (-e)).1 = n at *
  generalize (scale 2 num den (-e)).2 = d at *
  have hdq : (0 : ℚ) < d := Nat.cast_pos.2 hpos
  have he : (0 : ℚ) < 2 ^ e := by positivity
  have hx : (num : ℚ) / den = n / d * 2 ^ e := by
    rw [hscale, Nat.cast_ofNat, zpow_neg, mul_assoc, inv_mul_cancel₀ he.ne', mul_one]
  rw [hx] at hlow hhigh hodd
  have hlow' := le_of_mul_le_mul_right hlow he
  have hhigh' := le_of_mul_le_mul_right hhigh he
  rw [le_div_iff₀ hdq] at hlow'
  rw [div_le_iff₀ hdq] at hhigh'
  apply roundQuotient_eq
  · have hq : (2 * (k * d) : ℚ) ≤ 2 * n + d := by linarith
    exact_mod_cast hq
  · have hq : (2 * n : ℚ) ≤ 2 * (k * d) + d := by linarith
    exact_mod_cast hq
  · -- a tie is ruled out if the integer is odd
    intro htie
    by_contra hk
    obtain ⟨hlt, hgt⟩ := hodd (by omega)
    have hlt' := lt_of_mul_lt_mul_right hlt he.le
    have hgt' := lt_of_mul_lt_mul_right hgt he.le
    rw [lt_div_iff₀ hdq] at hlt'
    rw [div_lt_iff₀ hdq] at hgt'
    rcases htie with h | h
    · have hq : (2 * (k * d) : ℚ) = 2 * n + d := by exact_mod_cast h
      linarith
    · have hq : (2 * n : ℚ) = 2 * (k * d) + d := by exact_mod_cast h
      linarith
  · exact hpos

section RoundsTo

variable {m : Nat} {e : Int} {x : ℚ} (hm : IsFinite m e) (hx : RoundsTo m e x)

include hm hx

/-- A number that rounds to a double is less than the next power of two. -/
theorem RoundsTo.lt_pow : x < 2 ^ (53 + e) := by
  have he : (0 : ℚ) < 2 ^ e := by positivity
  have hshort : (m : ℚ) + 1 ≤ 2 * leastFull := by exact_mod_cast hm.short
  rw [leastFull_eq] at hshort
  calc x ≤ (m + 1 / 2) * 2 ^ e := hx.high
    _ < (2 * 2 ^ (52 : ℤ)) * 2 ^ e := by gcongr; linarith
    _ = 2 ^ (53 + e) := by rw [zpow_add₀ (by norm_num)]; norm_num

/-- Below the power of two of its double, a number rounds to it from the lower neighbour's side. -/
theorem RoundsTo.eq_leastFull (he : leastExponent < e) (hlt : x < 2 ^ (52 + e)) : m = leastFull := by
  have hfull : (leastFull : ℚ) ≤ m := by exact_mod_cast hm.full he.ne'
  by_contra hne
  have hnext : (leastFull : ℚ) + 1 ≤ m := by
    have := hm.full he.ne'
    exact_mod_cast Nat.lt_of_le_of_ne this (Ne.symm hne)
  have hpow : (0 : ℚ) < 2 ^ e := by positivity
  have hhalf := halfBelow_le m e
  have hx' := hx.low
  rw [zpow_add₀ (by norm_num), ← leastFull_eq] at hlt
  have : (leastFull : ℚ) * 2 ^ e ≤ (m - halfBelow m e) * 2 ^ e := by gcongr; linarith
  linarith

end RoundsTo

theorem ofFraction_eq {num den : Nat} {e : Int}
    (h : max leastExponent (fullExponent num den) = e) (negative : Bool) :
    ofFraction negative num den =
      carried negative (roundQuotient (scale 2 num den (-e)).1 (scale 2 num den (-e)).2) e := by
  unfold ofFraction
  rw [h]

theorem carried_of_short {m : Nat} {e : Int} (hm : IsFinite m e) (negative : Bool) :
    carried negative m e = .finite negative m e := by
  unfold carried
  rw [if_neg hm.short.ne]
  exact if_neg (not_lt.2 hm.greatest)

theorem carried_of_long {e : Int} (he : e + 1 ≤ greatestExponent) (negative : Bool) :
    carried negative (2 * leastFull) e = .finite negative leastFull (e + 1) := by
  unfold carried
  rw [if_pos rfl]
  exact if_neg (not_lt.2 he)

section OfFraction

variable {m num den : Nat} {e : Int} (hm : IsFinite m e) (hn : 0 < num) (hd : 0 < den)
  (hx : RoundsTo m e (num / den))

include hm hn hd hx

theorem fullExponent_le : fullExponent num den ≤ e := by
  have h := lt_of_le_of_lt (fullExponent_spec hn hd).1 (hx.lt_pow hm)
  rw [zpow_lt_zpow_iff_right₀ (by norm_num)] at h
  omega

omit hn in
/-- A fraction that has the exponent of the double is rounded to the mantissa. -/
theorem ofFraction_same (h : max leastExponent (fullExponent num den) = e) (negative : Bool) :
    ofFraction negative num den = .finite negative m e := by
  have hpow : (0 : ℚ) < 2 ^ e := by positivity
  have hhalf := halfBelow_le m e
  have hbelow : ((m : ℚ) - 1 / 2) * 2 ^ e ≤ (m - halfBelow m e) * 2 ^ e := by gcongr
  rw [ofFraction_eq h, round_scale hd e (hbelow.trans hx.low) hx.high
    fun hodd => ⟨hbelow.trans_lt (hx.low_lt hodd), hx.lt_high hodd⟩]
  exact carried_of_short hm negative

/-- A fraction just below the power of two that the double is has a lower exponent: its mantissa is
rounded to one that is too long, and carried over. -/
theorem ofFraction_carried (h : max leastExponent (fullExponent num den) ≠ e) (negative : Bool) :
    ofFraction negative num den = .finite negative m e := by
  have hle := fullExponent_le hm hn hd hx
  have hleast := hm.least
  have hgreatest := hm.greatest
  have hlt : leastExponent < e := by omega
  have hbelow : (num : ℚ) / den < 2 ^ (52 + e) := by
    refine (fullExponent_spec hn hd).2.trans_le ?_
    rw [zpow_le_zpow_iff_right₀ (by norm_num)]
    omega
  have hmant := hx.eq_leastFull hm hlt hbelow
  have hlow : ((leastFull : ℚ) - 1 / 4) * 2 ^ e ≤ num / den := by
    have hlow := hx.low
    rwa [halfBelow, if_pos ⟨hmant, hlt⟩, hmant] at hlow
  -- in units of the last place that the fraction has
  have hpow : (0 : ℚ) < 2 ^ (e - 1) := by positivity
  have hstep : (2 : ℚ) ^ e = 2 * 2 ^ (e - 1) := by
    rw [← zpow_one_add₀ (by norm_num)]
    congr 1
    ring
  rw [zpow_add₀ (by norm_num), ← leastFull_eq, hstep] at hbelow
  rw [hstep] at hlow
  have hexp : max leastExponent (fullExponent num den) = e - 1 := by
    have hone : (1 : ℚ) ≤ leastFull := by rw [leastFull_eq]; norm_num
    have hhalf : (leastFull : ℚ) * 2 ^ (e - 1) < (leastFull - 1 / 4) * 2 * 2 ^ (e - 1) := by
      gcongr
      linarith
    have hpows : (2 : ℚ) ^ (52 + (e - 1)) < 2 ^ (53 + fullExponent num den) := by
      rw [zpow_add₀ (by norm_num), ← leastFull_eq]
      linarith [(fullExponent_spec hn hd).2]
    rw [zpow_lt_zpow_iff_right₀ (by norm_num)] at hpows
    omega
  have hround : roundQuotient (scale 2 num den (-(e - 1))).1 (scale 2 num den (-(e - 1))).2 =
      2 * leastFull := by
    apply round_scale hd (e - 1)
    · push_cast
      linarith
    · push_cast
      linarith
    · omega
  rw [ofFraction_eq hexp, hround, carried_of_long (by omega), hmant, sub_add_cancel]

/-- **A fraction that rounds to a double is read as it.** -/
theorem ofFraction_of_roundsTo (negative : Bool) :
    ofFraction negative num den = .finite negative m e := by
  by_cases h : max leastExponent (fullExponent num den) = e
  · exact ofFraction_same hm hd hx h negative
  · exact ofFraction_carried hm hn hd hx h negative

end OfFraction

/-! ## Decimal numbers -/

/-- The digits of a decimal number tell its size up to a factor of ten. -/
theorem decimal_bounds {digits : Nat} (hd : 0 < digits) (power : Int) :
    (10 : ℚ) ^ (((Text.ofNat digits).length : ℤ) + power - 1) ≤ digits * 10 ^ power ∧
      (digits : ℚ) * 10 ^ power < 10 ^ (((Text.ofNat digits).length : ℤ) + power) := by
  have hlength : 0 < (Text.ofNat digits).length := Nat.length_toDigits_pos
  have hlow : (10 : ℚ) ^ (((Text.ofNat digits).length : ℤ) - 1) ≤ digits := by
    rw [← Nat.cast_one, ← Nat.cast_sub hlength, zpow_natCast]
    exact_mod_cast Text.pow_length_ofNat_le hd
  have hhigh : (digits : ℚ) < 10 ^ ((Text.ofNat digits).length : ℤ) := by
    exact_mod_cast Text.lt_pow_length_ofNat digits
  have hpow : (0 : ℚ) < 10 ^ power := by positivity
  constructor
  · rw [show ((Text.ofNat digits).length : ℤ) + power - 1 = (Text.ofNat digits).length - 1 + power by
      ring, zpow_add₀ (by norm_num)]
    gcongr
  · rw [zpow_add₀ (by norm_num)]
    gcongr

theorem two_pow_lt_ten_pow : 2 ^ 1024 < 10 ^ 310 ∧ 2 ^ 1075 < 10 ^ 326 := by decide +kernel

section OfDecimal

variable {m digits : Nat} {e power : Int} (hm : IsFinite m e) (hm0 : 0 < m) (hd : 0 < digits)
  (hx : RoundsTo m e (digits * 10 ^ power))

include hm hd hx

/-- What rounds to a double is not too large. -/
theorem RoundsTo.size_le : ((Text.ofNat digits).length : ℤ) + power ≤ 310 := by
  have hbound : (10 : ℚ) ^ (((Text.ofNat digits).length : ℤ) + power - 1) < 10 ^ (310 : ℤ) := by
    calc (10 : ℚ) ^ (((Text.ofNat digits).length : ℤ) + power - 1)
        ≤ digits * 10 ^ power := (decimal_bounds hd power).1
      _ < 2 ^ (53 + e) := hx.lt_pow hm
      _ ≤ 2 ^ (1024 : ℤ) := by
        rw [zpow_le_zpow_iff_right₀ (by norm_num)]
        have hgreatest : e ≤ 971 := hm.greatest
        omega
      _ < 10 ^ (310 : ℤ) := by exact_mod_cast two_pow_lt_ten_pow.1
  rw [zpow_lt_zpow_iff_right₀ (by norm_num)] at hbound
  omega

include hm0

/-- What rounds to a positive double is not too small. -/
theorem RoundsTo.le_size : -325 ≤ ((Text.ofNat digits).length : ℤ) + power := by
  have hone : (1 : ℚ) ≤ m := by exact_mod_cast hm0
  have hhalf := halfBelow_le m e
  have hbound : (10 : ℚ) ^ (-326 : ℤ) < 10 ^ (((Text.ofNat digits).length : ℤ) + power) := by
    calc (10 : ℚ) ^ (-326 : ℤ) < 2 ^ (-1075 : ℤ) := by
          rw [zpow_neg, zpow_neg]
          refine inv_strictAnti₀ (by positivity) ?_
          exact_mod_cast two_pow_lt_ten_pow.2
      _ = 2 ^ (-1 : ℤ) * 2 ^ (-1074 : ℤ) := by rw [← zpow_add₀ (by norm_num)]; rfl
      _ ≤ 2 ^ (-1 : ℤ) * 2 ^ e := by
        gcongr
        · norm_num
        · exact hm.least
      _ ≤ (m - halfBelow m e) * 2 ^ e := by
        gcongr
        norm_num
        linarith
      _ ≤ digits * 10 ^ power := hx.low
      _ < 10 ^ (((Text.ofNat digits).length : ℤ) + power) := (decimal_bounds hd power).2
  rw [zpow_lt_zpow_iff_right₀ (by norm_num)] at hbound
  omega

/-- **A decimal number that rounds to a double is read as it.** -/
theorem ofDecimal_of_roundsTo (negative : Bool) :
    ofDecimal negative digits power = .finite negative m e := by
  have hnum : 0 < (scale 10 digits 1 power).1 := by
    cases power with
    | ofNat k => exact Nat.mul_pos hd (Nat.pow_pos (by decide))
    | negSucc k => exact hd
  have hden := scale_den_pos (show 0 < 10 by decide) Nat.one_pos digits power
  have hscale := scale_eq (show 0 < 10 by decide) digits 1 power
  rw [Nat.cast_one, div_one, Nat.cast_ofNat] at hscale
  unfold ofDecimal
  rw [if_neg hd.ne']
  dsimp only
  rw [if_neg (not_lt.2 (hx.size_le hm hd)), if_neg (not_lt.2 (hx.le_size hm hm0 hd))]
  exact ofFraction_of_roundsTo hm hnum hden (hscale ▸ hx) negative

end OfDecimal

end AgdaFrontEnd.Binary64
