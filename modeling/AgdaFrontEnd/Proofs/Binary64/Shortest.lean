import AgdaFrontEnd.Binary64.Shortest
import AgdaFrontEnd.Proofs.Binary64.Rounding
import Mathlib.Data.Nat.Cast.Order.Field

/-!
# Shortest texts read back

The digits that are chosen for a double spell a number that rounds to it.

* `Binary64.roundsTo_of_has`: the interval of a double holds just what rounds to it.
* `Binary64.Interval.exists_nearest`: a fine enough grid has a point in an interval.
* `Binary64.shortestDigits_spec`: the digits of a double round to it.
-/

namespace AgdaFrontEnd.Binary64

/-! ## Intervals -/

namespace Interval

/-- The lower end of an interval. -/
def bottom (i : Interval) : ℚ := i.low / i.den

/-- The double that an interval is about. -/
def middle (i : Interval) : ℚ := i.mid / i.den

/-- The upper end of an interval. -/
def top (i : Interval) : ℚ := i.high / i.den

variable {i : Interval} (hi : 0 < i.den)

include hi

theorem has_iff (n : Nat) (power : Int) :
    i.has n power = true ↔
      if i.closed = true then i.bottom ≤ n * 10 ^ power ∧ (n : ℚ) * 10 ^ power ≤ i.top
      else i.bottom < n * 10 ^ power ∧ (n : ℚ) * 10 ^ power < i.top := by
  have hscale := scale_eq (show 0 < 10 by decide) n 1 power
  have hden := scale_den_pos (show 0 < 10 by decide) Nat.one_pos n power
  rw [Nat.cast_one, div_one, Nat.cast_ofNat] at hscale
  unfold has bottom top
  rw [← hscale]
  generalize scale 10 n 1 power = q at hden ⊢
  obtain ⟨num, den⟩ := q
  have hiq : (0 : ℚ) < i.den := Nat.cast_pos.2 hi
  have hdq : (0 : ℚ) < den := Nat.cast_pos.2 hden
  dsimp only
  rw [div_le_div_iff₀ hiq hdq, div_le_div_iff₀ hdq hiq, div_lt_div_iff₀ hiq hdq,
    div_lt_div_iff₀ hdq hiq]
  split
  · simp only [Bool.and_eq_true, decide_eq_true_eq]
    norm_cast
  · simp only [Bool.and_eq_true, decide_eq_true_eq]
    norm_cast

omit hi in
theorem has_of_nearest? {power : Int} {n : Nat} (h : i.nearest? power = some n) :
    i.has n power = true := by
  unfold nearest? at h
  dsimp only at h
  split at h
  · rename_i hbelow habove
    cases h
    split
    · exact habove
    · exact hbelow
  · rename_i hbelow habove
    cases h
    exact hbelow
  · rename_i hbelow habove
    cases h
    exact habove
  · cases h

/-- The middle of an interval lies between a multiple of a power of ten and the next one. -/
theorem between_multiples {power : Int} {num den : Nat} (h : scale 10 i.mid i.den (-power) = (num, den)) :
    ((num / den : Nat) : ℚ) * 10 ^ power ≤ i.middle ∧
      i.middle < ((num / den : Nat) + 1) * 10 ^ power := by
  have hscale := scale_eq (show 0 < 10 by decide) i.mid i.den (-power)
  have hden := scale_den_pos (show 0 < 10 by decide) hi i.mid (-power)
  rw [h] at hscale hden
  rw [Nat.cast_ofNat, zpow_neg, ← div_eq_mul_inv] at hscale
  have hpow : (0 : ℚ) < 10 ^ power := by positivity
  have hdq : (0 : ℚ) < den := Nat.cast_pos.2 hden
  have hmid : i.middle = num / den * 10 ^ power := by
    rw [hscale, div_mul_cancel₀ _ hpow.ne']
    rfl
  have hceil : (num : ℚ) / den < (num / den : Nat) + 1 := by
    rw [div_lt_iff₀ hdq]
    exact_mod_cast Nat.lt_mul_of_div_lt (Nat.lt_succ_self (num / den)) hden
  rw [hmid]
  exact ⟨mul_le_mul_of_nonneg_right Nat.cast_div_le hpow.le, mul_lt_mul_of_pos_right hceil hpow⟩

/-- **A fine enough grid has a point in the interval**, and it is not zero. -/
theorem exists_nearest {power : Int} (hbottom : i.bottom ≤ i.middle)
    (hmiddle : 10 ^ power ≤ i.middle) (htop : i.middle + 10 ^ power < i.top) :
    ∃ n, n ≠ 0 ∧ i.nearest? power = some n := by
  unfold nearest?
  rcases hq : scale 10 i.mid i.den (-power) with ⟨num, den⟩
  obtain ⟨hfloor, hceil⟩ := between_multiples hi hq
  dsimp only
  generalize num / den = n at *
  have hne : n ≠ 0 := by
    rintro rfl
    rw [Nat.cast_zero, zero_add, one_mul] at hceil
    exact absurd hmiddle (not_le.2 hceil)
  -- the next multiple is above the bottom, and not far above the middle
  have habove : i.has (n + 1) power = true := by
    rw [has_iff hi]
    push_cast
    have hlow : i.bottom < (n + 1) * 10 ^ power := hbottom.trans_lt hceil
    have hhigh : ((n : ℚ) + 1) * 10 ^ power < i.top := by
      rw [add_mul, one_mul]
      exact (add_le_add_left hfloor _).trans_lt htop
    split
    · exact ⟨hlow.le, hhigh.le⟩
    · exact ⟨hlow, hhigh⟩
  rw [habove]
  cases i.has n power with
  | true =>
    dsimp only
    split
    · exact ⟨_, Nat.succ_ne_zero _, rfl⟩
    · exact ⟨_, hne, rfl⟩
  | false => exact ⟨_, Nat.succ_ne_zero _, rfl⟩

omit hi in
/-- The search over ever finer grids finds a point if there is one. -/
theorem firstHit_spec : ∀ {steps : Nat} {power : Int},
    (∃ k < steps, ∃ n, n ≠ 0 ∧ i.nearest? (power - k) = some n) →
      (i.firstHit steps power).1 ≠ 0 ∧
        i.has (i.firstHit steps power).1 (i.firstHit steps power).2 = true
  | 0, _, ⟨k, hk, _⟩ => absurd hk (Nat.not_lt_zero k)
  | steps + 1, power, ⟨k, hk, n, hn, hnear⟩ => by
    -- the point is not on this grid, or this grid has one too
    have hlater (h : ∀ n', n' ≠ 0 → i.nearest? power ≠ some n') :
        ∃ k < steps, ∃ n, n ≠ 0 ∧ i.nearest? (power - 1 - k) = some n := by
      cases k with
      | zero =>
        rw [Int.natCast_zero, sub_zero] at hnear
        exact absurd hnear (h n hn)
      | succ k =>
        refine ⟨k, Nat.lt_of_succ_lt_succ hk, n, hn, ?_⟩
        rw [← hnear]
        congr 1
        push_cast
        ring
    rw [firstHit]
    split
    · rename_i n' hn'
      split
      · rename_i hzero
        apply firstHit_spec
        apply hlater
        intro n'' hn'' heq
        rw [hn', hzero] at heq
        exact hn'' (Option.some.inj heq).symm
      · rename_i hne
        exact ⟨hne, has_of_nearest? hn'⟩
    · rename_i hnone
      apply firstHit_spec
      apply hlater
      intro n'' _ heq
      rw [hnone] at heq
      cases heq

end Interval

/-! ## The interval of a double -/

section IntervalOf

variable {m : Nat} {e : Int} (hm0 : 0 < m)

include hm0

/-- The ends of the interval of a double are half the way to its neighbours. -/
theorem interval_spec (e : Int) : 0 < (interval m e).den ∧
    (interval m e).bottom = (m - halfBelow m e) * 2 ^ e ∧ (interval m e).middle = m * 2 ^ e ∧
      (interval m e).top = (m + 1 / 2) * 2 ^ e ∧ (interval m e).closed = (m % 2 == 0) := by
  have hscale := scale_eq (show 0 < 2 by decide) 1 4 e
  have hden := scale_den_pos (show 0 < 2 by decide) (show 0 < 4 by decide) 1 e
  have hfour : ((4 * m - 1 : Nat) : ℚ) = 4 * m - 1 ∧ ((4 * m - 2 : Nat) : ℚ) = 4 * m - 2 := by
    rw [Nat.cast_sub (by omega), Nat.cast_sub (by omega)]
    exact ⟨by push_cast; ring, by push_cast; ring⟩
  unfold Interval.bottom Interval.middle Interval.top interval halfBelow
  generalize scale 2 1 4 e = q at hscale hden ⊢
  obtain ⟨num, den⟩ := q
  dsimp only at hscale hden ⊢
  have hunit (x : ℚ) : (num : ℚ) * x / den = x / 4 * 2 ^ e := by
    rw [mul_div_right_comm, hscale]
    push_cast
    ring
  refine ⟨hden, ?_, ?_, ?_, rfl⟩
  · simp only [Bool.and_eq_true, decide_eq_true_eq]
    split
    · rw [Nat.cast_mul, hunit, hfour.1]
      ring
    · rw [Nat.cast_mul, hunit, hfour.2]
      ring
  · rw [Nat.cast_mul, hunit]
    push_cast
    ring
  · rw [Nat.cast_mul, hunit]
    push_cast
    ring

/-- The interval of a double holds just what rounds to it. -/
theorem roundsTo_of_has {n : Nat} {power : Int} (h : (interval m e).has n power = true) :
    RoundsTo m e (n * 10 ^ power) := by
  obtain ⟨hden, hbottom, -, htop, hclosed⟩ := interval_spec hm0 e
  rw [Interval.has_iff hden, hbottom, htop, hclosed] at h
  split at h
  · rename_i heven
    rw [beq_iff_eq] at heven
    exact ⟨h.1, h.2, fun hodd => by omega, fun hodd => by omega⟩
  · exact ⟨h.1.le, h.2.le, fun _ => h.1, fun _ => h.2⟩

end IntervalOf

/-! ## The digits of a double -/

/-- A positive fraction reaches its leading power of ten. -/
theorem leadingPower_spec {num den : Nat} (hn : 0 < num) (hd : 0 < den) :
    (10 : ℚ) ^ leadingPower num den ≤ num / den := by
  have hdq : (0 : ℚ) < den := Nat.cast_pos.2 hd
  unfold leadingPower
  split
  · rename_i hle
    have hpos : 0 < num / den := Nat.div_pos hle hd
    have hlength : 0 < (Text.ofNat (num / den)).length := Nat.length_toDigits_pos
    rw [← Nat.cast_one, ← Nat.cast_sub hlength, zpow_natCast]
    calc (10 : ℚ) ^ ((Text.ofNat (num / den)).length - 1) ≤ (num / den : Nat) := by
          exact_mod_cast Text.pow_length_ofNat_le hpos
      _ ≤ num / den := Nat.cast_div_le
  · rename_i hlt
    -- the quotient the other way round, rounded up
    have hup : den ≤ num * ((den + num - 1) / num) := by
      have h := Nat.lt_mul_div_succ (den + num - 1) hn
      rw [Nat.mul_add, Nat.mul_one] at h
      omega
    have hpow : (den + num - 1) / num ≤ 10 ^ (Text.ofNat ((den + num - 1) / num - 1)).length := by
      have h := Text.lt_pow_length_ofNat ((den + num - 1) / num - 1)
      omega
    rw [zpow_neg, zpow_natCast, le_div_iff₀ hdq, inv_mul_le_iff₀ (by positivity), mul_comm]
    exact_mod_cast hup.trans (Nat.mul_le_mul_left num hpow)

theorem trimZeros_spec : ∀ (steps n : Nat) (power : Int),
    ((trimZeros steps n power).1 : ℚ) * 10 ^ (trimZeros steps n power).2 = n * 10 ^ power ∧
      (n ≠ 0 → (trimZeros steps n power).1 ≠ 0)
  | 0, n, power => ⟨rfl, id⟩
  | steps + 1, n, power => by
    rw [trimZeros]
    split
    · rename_i h
      obtain ⟨hvalue, hne⟩ := trimZeros_spec steps (n / 10) (power + 1)
      obtain ⟨k, rfl⟩ := Nat.dvd_of_mod_eq_zero h.2
      rw [Nat.mul_div_cancel_left k (by decide)] at hvalue hne ⊢
      refine ⟨?_, fun _ => hne (by omega)⟩
      rw [hvalue, zpow_add_one₀ (by norm_num)]
      push_cast
      ring
    · exact ⟨rfl, id⟩

/-- Seventeen digits and a few more are fine enough for every double. -/
theorem exists_hit {m : Nat} {e : Int} (hm : IsFinite m e) (hm0 : 0 < m) :
    ∃ k < 20, ∃ n, n ≠ 0 ∧
      (interval m e).nearest? (leadingPower (interval m e).mid (interval m e).den - (k : Nat)) =
        some n := by
  obtain ⟨hden, hbottom, hmiddle, htop, -⟩ := interval_spec hm0 e
  have hpow : (0 : ℚ) < 2 ^ e := by positivity
  have hmq : (0 : ℚ) < m := Nat.cast_pos.2 hm0
  have hmid : 0 < (interval m e).mid := by
    have hpos : 0 < (interval m e).middle := by rw [hmiddle]; positivity
    by_contra hzero
    rw [Interval.middle, Nat.eq_zero_of_not_pos hzero, Nat.cast_zero, zero_div] at hpos
    exact lt_irrefl 0 hpos
  have hlead : (10 : ℚ) ^ leadingPower (interval m e).mid (interval m e).den ≤ m * 2 ^ e :=
    (leadingPower_spec hmid hden).trans_eq hmiddle
  generalize leadingPower (interval m e).mid (interval m e).den = lead at hlead ⊢
  have hgrid : (10 : ℚ) ^ (lead - (19 : Nat)) = 10 ^ lead / 10 ^ 19 := by
    rw [zpow_sub₀ (by norm_num)]
    rfl
  have hshort : (m : ℚ) < 2 ^ 53 := by
    have h : (m : ℚ) < 2 * leastFull := by exact_mod_cast hm.short
    rw [leastFull_eq] at h
    exact h.trans_eq (by norm_num)
  refine ⟨19, by decide, Interval.exists_nearest hden ?_ ?_ ?_⟩
  · rw [hbottom, hmiddle]
    have hhalf : 0 ≤ halfBelow m e := by unfold halfBelow; split <;> norm_num
    gcongr
    linarith
  · rw [hmiddle, hgrid]
    refine le_trans ?_ hlead
    exact div_le_self (by positivity) (by norm_num)
  · have hfine : (10 : ℚ) ^ lead / 10 ^ 19 < 1 / 2 * 2 ^ e := by
      rw [div_lt_iff₀ (by positivity)]
      calc (10 : ℚ) ^ lead ≤ m * 2 ^ e := hlead
        _ < 2 ^ 53 * 2 ^ e := by gcongr
        _ < 1 / 2 * 2 ^ e * 10 ^ 19 := by linarith
    rw [hmiddle, htop, hgrid, add_mul]
    gcongr

/-- **The digits of a double round to it.** -/
theorem shortestDigits_spec {m : Nat} {e : Int} (hm : IsFinite m e) (hm0 : 0 < m) :
    (shortestDigits m e).1 ≠ 0 ∧
      RoundsTo m e ((shortestDigits m e).1 * 10 ^ (shortestDigits m e).2) := by
  obtain ⟨hne, hhas⟩ := Interval.firstHit_spec (exists_hit hm hm0)
  have hround := roundsTo_of_has hm0 hhas
  unfold shortestDigits
  dsimp only
  generalize (interval m e).firstHit 20 (leadingPower (interval m e).mid (interval m e).den) = q at *
  obtain ⟨n, power⟩ := q
  obtain ⟨hvalue, htrim⟩ := trimZeros_spec 20 n power
  dsimp only at hne hround ⊢
  exact ⟨htrim hne, hvalue ▸ hround⟩

end AgdaFrontEnd.Binary64
