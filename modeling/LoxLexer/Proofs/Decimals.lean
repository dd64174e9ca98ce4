import LoxLexer.Number.Decimal
import LoxLexer.Proofs.Values

namespace LoxLexer.Decimal

open Magnitude

variable {d e : Decimal}

def value (d : Decimal) : ℚ := d.digits * 10 ^ d.exponent

theorem value_mul_ten_zpow (digits : ℕ) (e f : ℤ) :
    value ⟨digits, e⟩ * 10 ^ f = value ⟨digits, e + f⟩ := by
  rw [value, value, zpow_add₀ (by norm_num), mul_assoc]

theorem value_ten_pow_mul (n digits : ℕ) (e : ℤ) :
    value ⟨10 ^ n * digits, e⟩ = value ⟨digits, n + e⟩ := by
  rw [value, value, zpow_add₀ (by norm_num), zpow_natCast]
  push_cast
  ring

theorem denominator_pos (d : Decimal) : 0 < d.denominator := Nat.pow_pos (by decide)

theorem numerator_div_denominator (d : Decimal) :
    (d.numerator / d.denominator : ℚ) = d.value * unitsPerOne := by
  have hpow : ∀ b n : ℕ, ((Nat.pow b n : ℕ) : ℚ) = b ^ n := Nat.cast_pow
  simp only [numerator, denominator, Nat.cast_mul, hpow, mul_div_right_comm]
  refine congrArg (· * unitsPerOne) ?_
  rw [value]
  obtain ⟨n, hn | hn⟩ := Int.eq_nat_or_neg d.exponent
  · simp [hn]
  · simp [hn, div_eq_mul_inv]

theorem isRounded_ofUnits (d : Decimal) :
    IsRounded d.value (.ofUnits d.numerator d.denominator) :=
  ⟨_, d.numerator_div_denominator ▸ rounds_nearestRank _ d.denominator_pos, rfl⟩

theorem two_pow_le_ten_pow (n : ℕ) : (2 : ℚ) ^ (3 * n) ≤ 10 ^ n := by
  rw [pow_mul]
  exact pow_le_pow_left₀ (by norm_num) (by norm_num) n

theorem ten_zpow_neg_le (n : ℕ) : (10 : ℚ) ^ (-n : ℤ) ≤ 2 ^ (-(3 * n : ℕ) : ℤ) := by
  rw [zpow_neg, zpow_neg, zpow_natCast, zpow_natCast]
  exact inv_anti₀ (by positivity) (two_pow_le_ten_pow n)

theorem value_ge_of_exponent (hdigits : d.digits ≠ 0) (h : 400 < d.exponent) :
    2 ^ 1024 - 2 ^ 970 ≤ d.value := by
  have hone : (1 : ℚ) ≤ d.digits := by exact_mod_cast Nat.pos_of_ne_zero hdigits
  have hexponent : (10 : ℚ) ^ 400 ≤ 10 ^ d.exponent := by
    rw [← zpow_natCast]
    exact zpow_le_zpow_right₀ (by norm_num) h.le
  calc (2 : ℚ) ^ 1024 - 2 ^ 970 ≤ 2 ^ 1024 := sub_le_self _ (by positivity)
    _ ≤ 2 ^ (3 * 400) := pow_le_pow_right₀ (by norm_num) (by norm_num)
    _ ≤ 10 ^ 400 := two_pow_le_ten_pow 400
    _ ≤ 10 ^ d.exponent := hexponent
    _ ≤ d.value := le_mul_of_one_le_left (by positivity) hone

theorem value_le_of_log2 (h : d.exponent + d.digits.log2 < -400) :
    d.value ≤ 2 ^ (-1075 : ℤ) := by
  have hdigits : (d.digits : ℚ) ≤ 10 ^ (d.digits.log2 + 1) := by
    calc (d.digits : ℚ) ≤ 2 ^ (d.digits.log2 + 1) := by exact_mod_cast Nat.lt_log2_self.le
      _ ≤ 10 ^ (d.digits.log2 + 1) := pow_le_pow_left₀ (by norm_num) (by norm_num) _
  calc d.value ≤ 10 ^ (d.digits.log2 + 1) * 10 ^ d.exponent :=
        mul_le_mul_of_nonneg_right hdigits (by positivity)
    _ = 10 ^ ((d.digits.log2 + 1 : ℕ) + d.exponent) := by
        rw [zpow_add₀ (by norm_num), zpow_natCast]
    _ ≤ 10 ^ (-400 : ℤ) := zpow_le_zpow_right₀ (by norm_num) (by push_cast; omega)
    _ ≤ 2 ^ (-(3 * 400 : ℕ) : ℤ) := ten_zpow_neg_le 400
    _ ≤ 2 ^ (-1075 : ℤ) := zpow_le_zpow_right₀ (by norm_num) (by norm_num)

theorem magnitude_eq_ofUnits (d : Decimal) :
    d.magnitude = .ofUnits d.numerator d.denominator := by
  have hrounded := d.isRounded_ofUnits
  unfold magnitude
  split
  · next h =>
    have hvalue : d.value = 0 := by rw [value, h, Nat.cast_zero, zero_mul]
    exact (hrounded.eq_zero_iff.2 (hvalue ▸ by positivity)).symm
  · next hdigits =>
    split
    · next h => exact (hrounded.eq_infinity_iff.2 (value_ge_of_exponent hdigits h)).symm
    · split
      · next h => exact (hrounded.eq_zero_iff.2 (value_le_of_log2 h)).symm
      · rfl

theorem isRounded_magnitude (d : Decimal) : IsRounded d.value d.magnitude :=
  d.magnitude_eq_ofUnits ▸ d.isRounded_ofUnits

theorem magnitude_eq_of_value_eq (h : d.value = e.value) : d.magnitude = e.magnitude :=
  d.isRounded_magnitude.unique (h ▸ e.isRounded_magnitude)

theorem magnitude_of_value_eq {x : Magnitude} (h : d.value = x.value) : d.magnitude = x :=
  d.isRounded_magnitude.unique (h ▸ x.isRounded_value)

theorem value_normalize (d : Decimal) : d.normalize.value = d.value := by
  fun_induction normalize d with
  | case1 d h ih =>
    have hten : (10 : ℚ) * (d.digits / 10 : ℕ) = d.digits := by
      exact_mod_cast Nat.mul_div_cancel' (Nat.dvd_of_mod_eq_zero h.2)
    rw [ih, value, value, ← hten, zpow_add_one₀ (by norm_num)]
    ring
  | case2 => rfl

end LoxLexer.Decimal
