import Emitter.Number.General
import Emitter.Proofs.Number.Nearest

/-! Significant decimal digits. A fraction lies within half a unit of the last digit of the decimal
that it is rounded to, and where that unit is small beside the numbers of a binary format the decimal
stays between the midpoints around the number, so that it rounds back. -/

namespace Emitter.General

/-- What a decimal of a number of digits stands for. -/
def Decimal.toRat (precision : ℕ) (d : Decimal) : ℚ :=
  d.digits * 10 ^ (d.exponent - (precision - 1))

/-- All digits are used, and no more. -/
structure Decimal.Fits (precision : ℕ) (d : Decimal) : Prop where
  le : 10 ^ (precision - 1) ≤ d.digits
  lt : d.digits < 10 ^ precision

namespace Decimal.Fits

variable {precision : ℕ} {d : Decimal} (fits : d.Fits precision)
include fits

theorem digits_pos : 0 < d.digits := (Nat.pow_pos (by decide)).trans_le fits.le

theorem toRat_pos : 0 < d.toRat precision := by
  have := fits.digits_pos
  unfold toRat
  positivity

end Decimal.Fits

/-- A carry moves a digit into the exponent. -/
theorem toRat_significant {precision : ℕ} (h : 0 < precision) (x : Fraction) :
    (significant precision x).toRat precision =
      (x.scale 10 (precision - 1 - x.leading 10)).nearestEven *
        10 ^ (x.leading 10 - (precision - 1)) := by
  unfold significant
  dsimp only
  split
  · next carry =>
    rw [Decimal.toRat, carry]
    push_cast
    rw [← zpow_natCast, ← zpow_natCast, ← zpow_add₀ (by norm_num : (10 : ℚ) ≠ 0),
      ← zpow_add₀ (by norm_num : (10 : ℚ) ≠ 0)]
    congr 1
    omega
  · rfl

section

variable {precision : ℕ} (h : 0 < precision) {x : Fraction} (den : 0 < x.den)
  (positive : 0 < x.toRat)
include den positive

theorem leading_ten : x.leading 10 = Int.log 10 x.toRat :=
  Fraction.leading_eq (by decide) (Fraction.num_pos positive) den

/-- Half a unit of the last place, before a carry to one digit more. -/
theorem abs_places_sub_le (precision : ℕ) :
    |((x.scale 10 (precision - 1 - x.leading 10)).nearestEven : ℚ) *
        10 ^ (x.leading 10 - (precision - 1)) - x.toRat| ≤
      10 ^ (Int.log 10 x.toRat - (precision - 1)) / 2 := by
  rw [leading_ten den positive]
  set e := Int.log 10 x.toRat
  have half := Fraction.abs_nearestEven_sub_le
    (Fraction.den_scale_pos den (by decide : 0 < 10) (precision - 1 - e))
  rw [Fraction.toRat_scale, Nat.cast_ofNat] at half
  set n := (x.scale 10 (precision - 1 - e)).nearestEven
  have unit : (0 : ℚ) < 10 ^ (e - (precision - 1)) := by positivity
  have back : x.toRat * 10 ^ ((precision : ℤ) - 1 - e) * 10 ^ (e - (precision - 1)) = x.toRat := by
    rw [mul_assoc, ← zpow_add₀ (by norm_num : (10 : ℚ) ≠ 0), sub_add_sub_cancel', sub_self]
    simp
  calc |n * 10 ^ (e - (precision - 1)) - x.toRat|
      = |n - x.toRat * 10 ^ ((precision : ℤ) - 1 - e)| * 10 ^ (e - (precision - 1)) := by
        rw [← abs_of_pos unit, ← abs_mul, abs_of_pos unit, sub_mul, back]
    _ ≤ 1 / 2 * 10 ^ (e - (precision - 1)) := mul_le_mul_of_nonneg_right half unit.le
    _ = 10 ^ (e - (precision - 1)) / 2 := by ring

include h

theorem places_bounds :
    10 ^ (precision - 1) ≤ (x.scale 10 (precision - 1 - x.leading 10)).nearestEven ∧
      (x.scale 10 (precision - 1 - x.leading 10)).nearestEven ≤ 10 ^ precision := by
  rw [leading_ten den positive]
  set e := Int.log 10 x.toRat
  have half := Fraction.abs_nearestEven_sub_le
    (Fraction.den_scale_pos den (by decide : 0 < 10) (precision - 1 - e))
  rw [Fraction.toRat_scale, Nat.cast_ofNat] at half
  set n := (x.scale 10 (precision - 1 - e)).nearestEven
  set y := x.toRat * 10 ^ ((precision : ℤ) - 1 - e)
  have scale : (0 : ℚ) < 10 ^ ((precision : ℤ) - 1 - e) := by positivity
  have low : (10 : ℚ) ^ (precision - 1) ≤ y := by
    have power : (10 : ℚ) ^ (precision - 1) = 10 ^ e * 10 ^ ((precision : ℤ) - 1 - e) := by
      rw [← zpow_add₀ (by norm_num : (10 : ℚ) ≠ 0), ← zpow_natCast]
      congr 1
      omega
    rw [power]
    exact mul_le_mul_of_nonneg_right
      (by exact_mod_cast Int.zpow_log_le_self (by decide) positive) scale.le
  have high : y < (10 : ℚ) ^ precision := by
    have power : (10 : ℚ) ^ precision = 10 ^ (e + 1) * 10 ^ ((precision : ℤ) - 1 - e) := by
      rw [← zpow_add₀ (by norm_num : (10 : ℚ) ≠ 0), ← zpow_natCast]
      congr 1
      omega
    rw [power]
    exact mul_lt_mul_of_pos_right
      (by exact_mod_cast Int.lt_zpow_succ_log_self (by decide) x.toRat) scale
  rw [abs_le] at half
  have above : 10 ^ (precision - 1) < n + 1 := by
    have : (10 : ℚ) ^ (precision - 1) < n + 1 := by linarith
    exact_mod_cast this
  have below : n < 10 ^ precision + 1 := by
    have : (n : ℚ) < 10 ^ precision + 1 := by linarith
    exact_mod_cast this
  omega

theorem fits_significant : (significant precision x).Fits precision := by
  obtain ⟨low, high⟩ := places_bounds h den positive
  have smaller : 10 ^ (precision - 1) < 10 ^ precision :=
    Nat.pow_lt_pow_right (by decide) (by omega)
  unfold significant
  dsimp only
  split
  · exact ⟨le_rfl, smaller⟩
  · next carry => exact ⟨low, lt_of_le_of_ne high carry⟩

theorem abs_significant_sub_le :
    |(significant precision x).toRat precision - x.toRat| ≤
      10 ^ (Int.log 10 x.toRat - (precision - 1)) / 2 := by
  rw [toRat_significant h x]
  exact abs_places_sub_le den positive precision

end

/-- Digits that tell neighbours apart also where the format is coarsest beside them. -/
theorem near_significant {f : Binary.Format} {precision : ℕ} (h : 0 < precision)
    (enough : 2 ^ (f.fractionBits + 1) < 10 ^ (precision - 1)) {significand : ℕ} {exponent : ℤ}
    (canonical : f.Canonical significand exponent) (positive : 0 < significand) :
    f.Near significand exponent
      ((significant precision (Binary.magnitude significand exponent)).toRat precision) := by
  have den := Binary.den_magnitude_pos significand exponent
  have size_pos := Binary.rational_pos positive exponent
  rw [← Binary.toRat_magnitude] at size_pos
  have close := abs_significant_sub_le h den size_pos
  have power_le := Int.zpow_log_le_self (b := 10) (by decide) size_pos
  rw [Binary.toRat_magnitude] at close power_le
  set v := Binary.rational significand exponent with v_eq
  set d := (significant precision (Binary.magnitude significand exponent)).toRat precision
  have scale : (0 : ℚ) < 2 ^ (-exponent) := by positivity
  have unit : v * 2 ^ (-exponent) = significand := by
    rw [v_eq, Binary.rational, mul_assoc, ← zpow_add₀ two_ne_zero, add_neg_cancel, zpow_zero,
      mul_one]
  have digits : (0 : ℚ) < 10 ^ (precision - 1) := by positivity
  -- The last digit counts for a part of the number that is less than its own last place.
  have last : (10 : ℚ) ^ (Int.log 10 v - (precision - 1)) ≤ v / 10 ^ (precision - 1) := by
    have exponents : ((precision - 1 : ℕ) : ℤ) = precision - 1 := by omega
    rw [zpow_sub₀ (by norm_num), ← exponents, zpow_natCast]
    exact div_le_div_of_nonneg_right (by exact_mod_cast power_le) digits.le
  have error : |d * 2 ^ (-exponent) - significand| ≤ significand / 10 ^ (precision - 1) / 2 := by
    calc |d * 2 ^ (-exponent) - significand|
        = |d - v| * 2 ^ (-exponent) := by
          rw [← unit, ← sub_mul, abs_mul, abs_of_pos scale]
      _ ≤ v / 10 ^ (precision - 1) / 2 * 2 ^ (-exponent) :=
          mul_le_mul_of_nonneg_right (close.trans (by linarith)) scale.le
      _ = v * 2 ^ (-exponent) / 10 ^ (precision - 1) / 2 := by ring
      _ = significand / 10 ^ (precision - 1) / 2 := by rw [unit]
  have enough' : (2 : ℚ) ^ (f.fractionBits + 1) < 10 ^ (precision - 1) := by exact_mod_cast enough
  constructor
  · have lt : (significand : ℚ) < 2 ^ (f.fractionBits + 1) := by exact_mod_cast canonical.lt
    have : (significand : ℚ) / 10 ^ (precision - 1) < 1 := by
      rw [div_lt_one digits]
      linarith
    linarith
  · intro power_of_two _
    have half : (significand : ℚ) / 10 ^ (precision - 1) < 1 / 2 := by
      rw [div_lt_div_iff₀ digits two_pos, power_of_two]
      push_cast
      rw [pow_succ] at enough'
      linarith
    have := (abs_le.1 error).1
    linarith

end Emitter.General
