import Lox.Number.Decimal
import Lox.Proofs.Rounding
import Mathlib.Algebra.Order.Field.Power
import Mathlib.Data.Rat.Cast.Order
import Mathlib.Tactic.FieldSimp

/-! Decimals by their exact worth, and how far a decimal of some digits is from the fraction it
was rounded from. -/

namespace Lox.Proofs
open Decimal

def worth (d : Decimal) : ℚ := d.digits * 10 ^ d.exponent

theorem ten_zpow (exponent : Int) :
    (10 : ℚ) ^ exponent = 10 ^ exponent.toNat / 10 ^ (-exponent).toNat := by
  cases exponent with
  | ofNat n => simp
  | negSucc n => simp [Int.neg_negSucc, zpow_negSucc]

theorem fraction_pos (d : Decimal) : 0 < d.fraction.2 := Nat.pow_pos (by omega)

theorem fraction_worth (d : Decimal) : (d.fraction.1 : ℚ) / d.fraction.2 = worth d := by
  simp only [fraction, worth, Nat.pow_eq, Nat.cast_mul, Nat.cast_pow, Nat.cast_ofNat, ten_zpow d.exponent]
  ring

theorem ofDecimal_congr (negative : Bool) {d other : Decimal} (same : worth d = worth other) :
    Number.ofDecimal negative d = Number.ofDecimal negative other := by
  rw [← fraction_worth, ← fraction_worth, div_eq_div_iff (by exact_mod_cast (fraction_pos d).ne')
    (by exact_mod_cast (fraction_pos other).ne')] at same
  have cross : d.fraction.1 * Number.one * other.fraction.2 = other.fraction.1 * Number.one * d.fraction.2 := by
    rw [Nat.mul_right_comm, Nat.mul_right_comm other.fraction.1]
    congr 1
    exact_mod_cast same
  unfold Number.ofDecimal Format.round
  rw [nearest_congr Format.double (fraction_pos d) (fraction_pos other) cross]

theorem worth_trim (d : Decimal) : worth d.trim = worth d := by
  fun_induction trim d with
  | case1 d zero => simp [worth, zero]
  | case2 d _ tens ih =>
    have digits : (d.digits : ℚ) = (d.digits / 10 : Nat) * 10 := by
      exact_mod_cast (Nat.div_mul_cancel (Nat.dvd_of_mod_eq_zero tens)).symm
    rw [ih]
    simp only [worth]
    rw [digits, zpow_add₀ (by norm_num)]
    ring
  | case3 => rfl

/-- No zero stands at the end of the digits. -/
def Trimmed (d : Decimal) : Prop := d = ⟨0, 0⟩ ∨ d.digits % 10 ≠ 0

theorem trimmed_trim (d : Decimal) : Trimmed d.trim := by
  fun_induction trim d with
  | case1 => exact .inl rfl
  | case2 _ _ _ ih => exact ih
  | case3 _ _ last => exact .inr last

theorem trim_digits_le (d : Decimal) : d.trim.digits ≤ d.digits := by
  fun_induction trim d with
  | case1 => exact Nat.zero_le _
  | case2 d _ _ ih => exact ih.trans (Nat.div_le_self d.digits 10)
  | case3 => exact le_rfl

theorem digitCount_bounds {n : Nat} (positive : 0 < n) :
    10 ^ (digitCount n - 1) ≤ n ∧ n < 10 ^ digitCount n := by
  fun_induction digitCount n with
  | case1 => omega
  | case2 n _ ih =>
    rw [Nat.add_sub_cancel, Nat.pow_succ]
    by_cases small : n / 10 = 0
    · have none : digitCount (n / 10) = 0 := by rw [small, digitCount, if_pos rfl]
      rw [none, Nat.pow_zero]
      omega
    · obtain ⟨lower, upper⟩ := ih (by omega)
      have count : digitCount (n / 10) = digitCount (n / 10) - 1 + 1 := by
        rw [digitCount, if_neg small]
        omega
      rw [count, Nat.pow_succ] at upper ⊢
      omega

theorem digitCount_pos {n : Nat} (positive : 0 < n) : 0 < digitCount n := by
  rw [digitCount, if_neg positive.ne']
  omega

theorem digitCount_le {n count : Nat} (small : n < 10 ^ count) : digitCount n ≤ count := by
  rcases Nat.eq_zero_or_pos n with rfl | positive
  · rw [digitCount, if_pos rfl]
    exact Nat.zero_le count
  · have powers := (digitCount_bounds positive).1.trans_lt small
    have exponents := (Nat.pow_lt_pow_iff_right (by omega)).mp powers
    omega

theorem leading_bounds {num den : Nat} (some : 0 < num) (positive : 0 < den) :
    (10 : ℚ) ^ leading num den ≤ num / den ∧ (num / den : ℚ) < 10 ^ (leading num den + 1) := by
  have den_pos : (0 : ℚ) < den := by exact_mod_cast positive
  unfold leading
  split
  next large =>
    have whole : 0 < num / den := Nat.div_pos large positive
    obtain ⟨lower, upper⟩ := digitCount_bounds whole
    have below : (digitCount (num / den) : Int) - 1 = (digitCount (num / den) - 1 : Nat) := by
      have some := digitCount_pos whole
      omega
    rw [sub_add_cancel, below, zpow_natCast, zpow_natCast, le_div_iff₀ den_pos, div_lt_iff₀ den_pos]
    constructor
    · exact_mod_cast (Nat.le_div_iff_mul_le positive).mp lower
    · exact_mod_cast (Nat.div_lt_iff_lt_mul positive).mp upper
  next small =>
    have whole : 0 < (den - 1) / num := Nat.div_pos (by omega) some
    obtain ⟨lower, upper⟩ := digitCount_bounds whole
    have above : -(digitCount ((den - 1) / num) : Int) + 1 = -(digitCount ((den - 1) / num) - 1 : Nat) := by
      have some := digitCount_pos whole
      omega
    rw [above, zpow_neg, zpow_neg, zpow_natCast, zpow_natCast, le_div_iff₀ den_pos, div_lt_iff₀ den_pos,
      inv_mul_le_iff₀ (by positivity), lt_inv_mul_iff₀ (by positivity)]
    have under := (Nat.le_div_iff_mul_le some).mp lower
    have past := (Nat.div_lt_iff_lt_mul some).mp upper
    constructor
    · exact_mod_cast (show den ≤ 10 ^ digitCount ((den - 1) / num) * num by omega)
    · exact_mod_cast (show 10 ^ (digitCount ((den - 1) / num) - 1) * num < den by omega)

theorem divEven_half (num : Nat) {den : Nat} (positive : 0 < den) :
    |(divEven num den : ℚ) - num / den| ≤ 1 / 2 := by
  obtain ⟨above, below⟩ := divEven_error num positive
  have den_pos : (0 : ℚ) < den := by exact_mod_cast positive
  have above' : 2 * (num : ℚ) ≤ (2 * divEven num den + 1) * den := by exact_mod_cast above
  have below' : 2 * (divEven num den : ℚ) * den ≤ 2 * num + den := by exact_mod_cast below
  rw [abs_le]
  constructor
  · have upper : (num / den : ℚ) ≤ divEven num den + 1 / 2 := by
      rw [div_le_iff₀ den_pos]
      linarith
    linarith
  · have lower : (divEven num den : ℚ) - 1 / 2 ≤ num / den := by
      rw [le_div_iff₀ den_pos]
      linarith
    linarith

/-- A fraction counted in units of the power of ten, which goes above or below the line. -/
theorem scaled_fraction (num : Nat) {den : Nat} (exponent : Int) :
    (num / den : ℚ) = (num * Nat.pow 10 (-exponent).toNat : Nat) / (den * Nat.pow 10 exponent.toNat : Nat) *
      10 ^ exponent := by
  rw [ten_zpow exponent]
  simp only [Nat.pow_eq, Nat.cast_mul, Nat.cast_pow, Nat.cast_ofNat]
  field_simp

/-- A decimal of `count + 1` digits errs by at most half of 10^-`count` of the value. -/
theorem nearest_error (count num : Nat) {den : Nat} (positive : 0 < den) :
    |worth (Decimal.nearest (count + 1) num den) - num / den| * (2 * 10 ^ count) ≤ num / den := by
  unfold Decimal.nearest
  by_cases zero : num = 0
  · simp [worth, zero]
  obtain ⟨lower, -⟩ := leading_bounds (Nat.pos_of_ne_zero zero) positive
  rw [if_neg zero]
  generalize exponent_eq : leading num den + 1 - (count + 1 : Nat) = exponent
  have unit : (10 : ℚ) ^ leading num den = 10 ^ exponent * 10 ^ count := by
    rw [← zpow_natCast, ← zpow_add₀ (by norm_num)]
    congr 1
    omega
  have scaled := @scaled_fraction num den exponent
  have below : 0 < den * Nat.pow 10 exponent.toNat := Nat.mul_pos positive (Nat.pow_pos (by omega))
  have power : (0 : ℚ) < 10 ^ exponent := by positivity
  have error : |worth ⟨divEven (num * Nat.pow 10 (-exponent).toNat) (den * Nat.pow 10 exponent.toNat),
      exponent⟩ - num / den| ≤ 1 / 2 * 10 ^ exponent := by
    rw [scaled, worth, ← sub_mul, abs_mul, abs_of_pos power]
    exact mul_le_mul_of_nonneg_right (divEven_half _ below) power.le
  calc
    _ ≤ 1 / 2 * (10 : ℚ) ^ exponent * (2 * 10 ^ count) := by gcongr
    _ = 10 ^ leading num den := by
      rw [unit]
      ring
    _ ≤ num / den := lower

theorem nearest_error_scaled (count num : Nat) {den : Nat} (positive : 0 < den) :
    |worth (Decimal.nearest (count + 1) num den) * den - num| * (2 * 10 ^ count) ≤ num := by
  have error := nearest_error count num positive
  have den_pos : (0 : ℚ) < den := by exact_mod_cast positive
  rwa [le_div_iff₀ den_pos, mul_right_comm, ← abs_of_pos den_pos, ← abs_mul, abs_of_pos den_pos, sub_mul,
    div_mul_cancel₀ _ den_pos.ne'] at error

theorem nearest_digits_le (count num : Nat) {den : Nat} (positive : 0 < den) :
    (Decimal.nearest (count + 1) num den).digits ≤ 10 ^ (count + 1) := by
  unfold Decimal.nearest
  by_cases zero : num = 0
  · rw [if_pos zero]
    exact Nat.zero_le _
  obtain ⟨-, upper⟩ := leading_bounds (Nat.pos_of_ne_zero zero) positive
  rw [if_neg zero]
  dsimp only
  generalize exponent_eq : leading num den + 1 - (count + 1 : Nat) = exponent
  have below : 0 < den * Nat.pow 10 exponent.toNat := Nat.mul_pos positive (Nat.pow_pos (by omega))
  have below' : (0 : ℚ) < (den * Nat.pow 10 exponent.toNat : Nat) := by exact_mod_cast below
  have power : (0 : ℚ) < 10 ^ exponent := by positivity
  have unit : (10 : ℚ) ^ (leading num den + 1) = 10 ^ (count + 1) * 10 ^ exponent := by
    rw [← zpow_natCast, ← zpow_add₀ (by norm_num)]
    congr 1
    omega
  rw [unit, scaled_fraction num exponent, mul_lt_mul_iff_left₀ power, div_lt_iff₀ below'] at upper
  apply divEven_le below
  exact_mod_cast upper.le

/-- Rounding up to a power of ten adds a digit, which trimming takes away again. -/
theorem digitCount_nearest_trim (count num : Nat) {den : Nat} (positive : 0 < den) :
    digitCount (Decimal.nearest (count + 1) num den).trim.digits ≤ count + 1 := by
  have bound := (trim_digits_le _).trans (nearest_digits_le count num positive)
  apply digitCount_le
  apply Nat.lt_of_le_of_ne bound
  intro same
  rcases trimmed_trim (Decimal.nearest (count + 1) num den) with zero | last
  · rw [zero] at same
    exact absurd same (Nat.pow_pos (by omega)).ne
  · rw [same, Nat.pow_succ] at last
    omega

end Lox.Proofs
