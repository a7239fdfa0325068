import Emitter.Number.Fraction
import Mathlib.Algebra.Order.Floor.Semifield
import Mathlib.Data.Int.Log
import Mathlib.Data.Nat.Log
import Mathlib.Data.Rat.Floor
import Mathlib.Tactic.FieldSimp
import Mathlib.Tactic.Linarith
import Mathlib.Tactic.Positivity
import Mathlib.Tactic.Ring

/-! Fractions as rational numbers: scaling multiplies by a power, the leading exponent is the
integer logarithm, and rounding goes to a whole number within one half. -/

namespace Emitter.Fraction

def toRat (x : Fraction) : ℚ := x.num / x.den

@[simp] theorem toRat_ofNat (n : ℕ) : (ofNat n).toRat = n := by
  simp [toRat, ofNat]

theorem toRat_scale (x : Fraction) (base : ℕ) (e : ℤ) :
    (x.scale base e).toRat = x.toRat * (base : ℚ) ^ e := by
  cases e with
  | ofNat e => simp [scale, toRat, div_mul_eq_mul_div]
  | negSucc e =>
    simp only [scale, toRat, zpow_negSucc, Nat.cast_mul, Nat.cast_pow]
    rw [div_mul_eq_div_div, div_eq_mul_inv _ ((base : ℚ) ^ (e + 1))]

theorem den_scale_pos {x : Fraction} (den : 0 < x.den) {base : ℕ} (positive : 0 < base) (e : ℤ) :
    0 < (x.scale base e).den := by
  cases e with
  | ofNat e => exact den
  | negSucc e => exact Nat.mul_pos den (Nat.pow_pos positive)

theorem num_pos {x : Fraction} (h : 0 < x.toRat) : 0 < x.num := by
  refine Nat.pos_of_ne_zero fun zero => ?_
  simp [toRat, zero] at h

section

variable {x : Fraction} (den : 0 < x.den)
include den

theorem toRat_pos (num : 0 < x.num) : 0 < x.toRat := by
  unfold toRat
  positivity

/-! ## Rounding -/

theorem abs_nearestEven_sub_le : |(x.nearestEven : ℚ) - x.toRat| ≤ 1 / 2 := by
  obtain ⟨above, below⟩ := nearestEven_close x den
  have den' : (0 : ℚ) < x.den := by exact_mod_cast den
  have above' : 2 * (x.num : ℚ) ≤ (2 * x.nearestEven + 1) * x.den := by exact_mod_cast above
  have below' : 2 * (x.nearestEven : ℚ) * x.den ≤ 2 * x.num + x.den := by exact_mod_cast below
  have whole : x.toRat * x.den = x.num := div_mul_cancel₀ _ den'.ne'
  rw [abs_le]
  constructor
  · have : x.toRat * x.den ≤ (x.nearestEven + 1 / 2) * x.den := by linarith
    linarith [le_of_mul_le_mul_right this den']
  · have : (x.nearestEven : ℚ) * x.den ≤ (x.toRat + 1 / 2) * x.den := by linarith
    linarith [le_of_mul_le_mul_right this den']

/-- Closer than one half there is one whole number only. -/
theorem nearestEven_eq {n : ℕ} (close : |x.toRat - n| < 1 / 2) : x.nearestEven = n := by
  have near := abs_nearestEven_sub_le den
  rw [abs_lt] at close
  rw [abs_le] at near
  have above : x.nearestEven < n + 1 := by
    have : (x.nearestEven : ℚ) < (n + 1 : ℕ) := by push_cast; linarith
    exact_mod_cast this
  have below : n < x.nearestEven + 1 := by
    have : (n : ℚ) < (x.nearestEven + 1 : ℕ) := by push_cast; linarith
    exact_mod_cast this
  omega

theorem lt_half_of_odd (odd : x.nearestEven % 2 = 1) : |(x.nearestEven : ℚ) - x.toRat| < 1 / 2 := by
  have den' : (0 : ℚ) < x.den := by exact_mod_cast den
  have parts : (x.den : ℚ) * (x.num / x.den : ℕ) + (x.num % x.den : ℕ) = x.num := by
    exact_mod_cast Nat.div_add_mod x.num x.den
  have value : x.toRat = (x.num / x.den : ℕ) + (x.num % x.den : ℕ) / (x.den : ℚ) := by
    rw [toRat, ← parts]
    field_simp
  have rest_lt : x.num % x.den < x.den := Nat.mod_lt _ den
  rw [value]
  unfold nearestEven at odd ⊢
  dsimp only at odd ⊢
  generalize x.num / x.den = whole at odd
  generalize x.num % x.den = rest at odd rest_lt
  have rest_lt' : (rest : ℚ) < x.den := by exact_mod_cast rest_lt
  split at odd
  · next small =>
    rw [if_pos small]
    have small' : 2 * (rest : ℚ) < x.den := by exact_mod_cast small
    have part : (rest : ℚ) / x.den < 1 / 2 := by
      rw [div_lt_div_iff₀ den' two_pos]
      linarith
    have nonneg : 0 ≤ (rest : ℚ) / x.den := by positivity
    rw [abs_lt]
    constructor <;> linarith
  · next large =>
    rw [if_neg large]
    split at odd
    · next above =>
      rw [if_pos above]
      have above' : (x.den : ℚ) < 2 * rest := by exact_mod_cast above
      have part : 1 / 2 < (rest : ℚ) / x.den := by
        rw [div_lt_div_iff₀ two_pos den']
        linarith
      have part' : (rest : ℚ) / x.den < 1 := by rwa [div_lt_one den']
      push_cast
      rw [abs_lt]
      constructor <;> linarith
    · omega

/-- No whole number is nearer, and where one is as near the even one is taken. -/
theorem nearestEven_nearest (n : ℕ) :
    |(x.nearestEven : ℚ) - x.toRat| ≤ |(n : ℚ) - x.toRat| ∧
      (|(n : ℚ) - x.toRat| = |(x.nearestEven : ℚ) - x.toRat| →
        n = x.nearestEven ∨ x.nearestEven % 2 = 0) := by
  have near := abs_nearestEven_sub_le den
  by_cases same : n = x.nearestEven
  · rw [same]
    exact ⟨le_rfl, fun _ => .inl rfl⟩
  · have apart : (1 : ℚ) ≤ |(n : ℚ) - x.nearestEven| := by
      have : (1 : ℤ) ≤ |(n : ℤ) - x.nearestEven| := Int.one_le_abs (by omega)
      exact_mod_cast this
    have triangle := abs_sub_le (n : ℚ) x.toRat x.nearestEven
    rw [abs_sub_comm x.toRat] at triangle
    refine ⟨by linarith, fun tie => .inr ?_⟩
    by_contra odd
    have closer := lt_half_of_odd den (by omega : x.nearestEven % 2 = 1)
    linarith

end

/-! ## The leading exponent -/

/-- The logarithm is the exponent of the powers on either side. -/
theorem log_eq {base : ℕ} (h : 1 < base) {r : ℚ} (positive : 0 < r) {e : ℤ}
    (low : (base : ℚ) ^ e ≤ r) (high : r < (base : ℚ) ^ (e + 1)) : Int.log base r = e := by
  have le_log := (Int.zpow_le_iff_le_log h positive).1 low
  have log_lt := (Int.lt_zpow_iff_log_lt h positive).1 high
  omega

theorem digitCount_eq {base : ℕ} (h : 1 < base) {n : ℕ} (positive : 0 < n) :
    digitCount base n = Nat.log base n + 1 := by
  induction n using Nat.strong_induction_on with
  | _ n ih =>
    rw [digitCount, dif_neg (by omega)]
    rcases Nat.lt_or_ge n base with small | large
    · rw [Nat.div_eq_of_lt small, Nat.log_of_lt small, digitCount, dif_pos (.inl rfl)]
    · have smaller : n / base < n := Nat.div_lt_self positive h
      rw [ih _ smaller (Nat.div_pos large (by omega)), Nat.log_of_one_lt_of_le h large]

theorem leading_eq {base : ℕ} (h : 1 < base) {x : Fraction} (num : 0 < x.num) (den : 0 < x.den) :
    x.leading base = Int.log base x.toRat := by
  have den' : (0 : ℚ) < x.den := by exact_mod_cast den
  unfold leading
  split
  · next large =>
    have one_le : 1 ≤ x.toRat := by
      rw [toRat, one_le_div den']
      exact_mod_cast large
    have floor : ⌊x.toRat⌋₊ = x.num / x.den := Nat.floor_div_eq_div _ _
    rw [Int.log_of_one_le_right _ one_le, floor, digitCount_eq h (Nat.div_pos large den)]
    simp
  · next small =>
    have base' : (0 : ℚ) < base := by exact_mod_cast (by omega : 0 < base)
    have positive : 0 < (x.den - 1) / x.num := Nat.div_pos (by omega) num
    rw [digitCount_eq h positive]
    set k := Nat.log base ((x.den - 1) / x.num) with k_eq
    have below : base ^ k * x.num ≤ x.den - 1 :=
      (Nat.le_div_iff_mul_le num).1 (Nat.pow_log_le_self base positive.ne')
    have above : x.den - 1 < base ^ (k + 1) * x.num :=
      (Nat.div_lt_iff_lt_mul num).1 (Nat.lt_pow_succ_log_self h _)
    have below' : (base : ℚ) ^ k * x.num < x.den := by
      exact_mod_cast (by omega : base ^ k * x.num < x.den)
    have above' : (x.den : ℚ) ≤ (base : ℚ) ^ (k + 1) * x.num := by
      exact_mod_cast (by omega : x.den ≤ base ^ (k + 1) * x.num)
    refine (log_eq h (toRat_pos den num) ?_ ?_).symm
    · rw [zpow_neg, zpow_natCast, toRat, inv_le_iff_one_le_mul₀ (by positivity), div_mul_eq_mul_div,
        one_le_div den']
      linarith
    · have next : -((k + 1 : ℕ) : ℤ) + 1 = -(k : ℤ) := by push_cast; ring
      rw [next, zpow_neg, zpow_natCast, toRat, lt_inv_comm₀ (by positivity) (by positivity),
        inv_div, lt_div_iff₀ (by exact_mod_cast num)]
      exact below'

end Emitter.Fraction
