import Emitter.Number.Binary
import Emitter.Proofs.Number.Rational
import Mathlib.Algebra.Order.Field.Power

/-! Rounding to a binary format. A finite pattern counts the numbers below its own, so that it is
made of a significand and an exponent in the same way as a rounded fraction is. No number of the
format is nearer to a fraction than the one it is rounded to, and every fraction between the
midpoints on either side of a number rounds to its pattern. -/

namespace Emitter.Binary

/-- The size of a finite number, as a rational number. -/
def rational (significand : ℕ) (exponent : ℤ) : ℚ := significand * 2 ^ exponent

theorem toRat_magnitude (significand : ℕ) (exponent : ℤ) :
    (magnitude significand exponent).toRat = rational significand exponent := by
  rw [magnitude, Fraction.toRat_scale, Fraction.toRat_ofNat, rational]
  rfl

theorem den_magnitude_pos (significand : ℕ) (exponent : ℤ) :
    0 < (magnitude significand exponent).den :=
  Fraction.den_scale_pos Nat.one_pos Nat.two_pos exponent

theorem rational_pos {significand : ℕ} (positive : 0 < significand) (exponent : ℤ) :
    0 < rational significand exponent := by
  unfold rational
  positivity

namespace Format

variable (f : Format)

/-- The significand fits, and uses its highest bit unless the exponent is the least. -/
structure Canonical (significand : ℕ) (exponent : ℤ) : Prop where
  lt : significand < 2 ^ (f.fractionBits + 1)
  least_le : f.least ≤ exponent
  normal : f.least < exponent → 2 ^ f.fractionBits ≤ significand

/-- The pattern of a positive number; where the significand has its highest bit, that bit counts in
the exponent field. -/
def pattern (significand : ℕ) (exponent : ℤ) : ℕ :=
  (exponent - f.least).toNat * 2 ^ f.fractionBits + significand

variable {f}

theorem pattern_of_exponent {fraction exponent : ℕ} :
    f.pattern (2 ^ f.fractionBits + fraction) (f.least + exponent) =
      (exponent + 1) * 2 ^ f.fractionBits + fraction := by
  rw [pattern, add_sub_cancel_left, Int.toNat_natCast]
  ring

/-- The fields make up the pattern. -/
theorem fields_eq {bits : ℕ} (word : bits < 2 ^ (f.fractionBits + f.exponentBits + 1)) :
    bits = f.signBit (bits / 2 ^ (f.fractionBits + f.exponentBits) % 2 == 1) +
      (bits / 2 ^ f.fractionBits % 2 ^ f.exponentBits * 2 ^ f.fractionBits +
        bits % 2 ^ f.fractionBits) := by
  have sign : bits / 2 ^ (f.fractionBits + f.exponentBits) < 2 := by
    rw [Nat.div_lt_iff_lt_mul (by positivity)]
    rw [pow_succ] at word
    omega
  have upper : bits / 2 ^ f.fractionBits / 2 ^ f.exponentBits =
      bits / 2 ^ (f.fractionBits + f.exponentBits) := by
    rw [Nat.div_div_eq_div_mul, pow_add]
  have low := Nat.div_add_mod bits (2 ^ f.fractionBits)
  have high := Nat.div_add_mod (bits / 2 ^ f.fractionBits) (2 ^ f.exponentBits)
  rw [upper] at high
  have signBit : f.signBit (bits / 2 ^ (f.fractionBits + f.exponentBits) % 2 == 1) =
      bits / 2 ^ (f.fractionBits + f.exponentBits) * 2 ^ (f.fractionBits + f.exponentBits) := by
    generalize bits / 2 ^ (f.fractionBits + f.exponentBits) = n at sign
    obtain rfl | rfl : n = 0 ∨ n = 1 := by omega
    all_goals simp [Format.signBit]
  calc bits = 2 ^ f.fractionBits * (bits / 2 ^ f.fractionBits) + bits % 2 ^ f.fractionBits :=
        low.symm
    _ = 2 ^ f.fractionBits * (2 ^ f.exponentBits *
          (bits / 2 ^ (f.fractionBits + f.exponentBits)) +
          bits / 2 ^ f.fractionBits % 2 ^ f.exponentBits) + bits % 2 ^ f.fractionBits := by
        rw [high]
    _ = _ := by
        rw [signBit, pow_add]
        ring

/-- A finite pattern is the one of its number. -/
theorem pattern_of_value {bits : ℕ} (word : bits < 2 ^ (f.fractionBits + f.exponentBits + 1))
    {negative : Bool} {significand : ℕ} {exponent : ℤ}
    (h : f.value bits = .finite negative significand exponent) :
    f.Canonical significand exponent ∧ f.pattern significand exponent < f.infinity ∧
      bits = f.signBit negative + f.pattern significand exponent := by
  have fields := fields_eq word
  have fraction_lt : bits % 2 ^ f.fractionBits < 2 ^ f.fractionBits :=
    Nat.mod_lt _ (by positivity)
  have exponent_lt : bits / 2 ^ f.fractionBits % 2 ^ f.exponentBits < 2 ^ f.exponentBits :=
    Nat.mod_lt _ (by positivity)
  unfold value at h
  dsimp only at h
  generalize bits % 2 ^ f.fractionBits = fraction at fields fraction_lt h
  generalize bits / 2 ^ f.fractionBits % 2 ^ f.exponentBits = field at fields exponent_lt h
  generalize (bits / 2 ^ (f.fractionBits + f.exponentBits) % 2 == 1) = sign at fields h
  have below : field * 2 ^ f.fractionBits + fraction < f.infinity ∨
      field = 2 ^ f.exponentBits - 1 := by
    rcases Nat.lt_or_ge field (2 ^ f.exponentBits - 1) with small | large
    · left
      calc field * 2 ^ f.fractionBits + fraction < (field + 1) * 2 ^ f.fractionBits := by
            rw [add_mul, one_mul]
            omega
        _ ≤ f.infinity := Nat.mul_le_mul_right _ small
    · right
      omega
  split at h
  · split at h <;> cases h
  next ordinary =>
  have below := below.resolve_right ordinary
  split at h
  · next subnormal =>
    obtain ⟨rfl, rfl, rfl⟩ : sign = negative ∧ fraction = significand ∧ f.least = exponent := by
      simpa using h
    have same : f.pattern fraction f.least = field * 2 ^ f.fractionBits + fraction := by
      simp [pattern, subnormal]
    refine ⟨⟨?_, le_refl _, fun above => absurd above (lt_irrefl _)⟩, same ▸ below, same ▸ fields⟩
    rw [pow_succ]
    omega
  · next positive =>
    obtain ⟨rfl, rfl, rfl⟩ : sign = negative ∧ 2 ^ f.fractionBits + fraction = significand ∧
        f.least + ((field - 1 : ℕ) : ℤ) = exponent := by
      simpa using h
    have same : f.pattern (2 ^ f.fractionBits + fraction) (f.least + ((field - 1 : ℕ) : ℤ)) =
        field * 2 ^ f.fractionBits + fraction := by
      rw [pattern_of_exponent, Nat.sub_add_cancel (Nat.pos_of_ne_zero positive)]
    refine ⟨⟨?_, by omega, fun _ => Nat.le_add_right _ _⟩, same ▸ below, same ▸ fields⟩
    rw [pow_succ]
    omega

/-- A carry out of the significand counts in the exponent field. -/
theorem pattern_carry {exponent : ℤ} (above : f.least < exponent) :
    f.pattern (2 ^ (f.fractionBits + 1)) (exponent - 1) =
      f.pattern (2 ^ f.fractionBits) exponent := by
  obtain ⟨n, rfl⟩ : ∃ n : ℕ, exponent = f.least + (n + 1 : ℕ) :=
    ⟨(exponent - f.least).toNat - 1, by omega⟩
  have before : f.least + ((n + 1 : ℕ) : ℤ) - 1 - f.least = n := by push_cast; ring
  rw [pattern, pattern, before, add_sub_cancel_left, Int.toNat_natCast, Int.toNat_natCast]
  ring

/-- Between the midpoints on either side of a number, in units of its last place. Below a power of
two the numbers stand twice as close. -/
structure Near (f : Format) (significand : ℕ) (exponent : ℤ) (x : ℚ) : Prop where
  close : |x * 2 ^ (-exponent) - significand| < 1 / 2
  closer : significand = 2 ^ f.fractionBits → f.least < exponent →
    (significand : ℚ) - 1 / 4 < x * 2 ^ (-exponent)

/-- The exponent of the last place that is kept of a fraction. -/
def lastPlace (f : Format) (x : Fraction) : ℤ := max f.least (Int.log 2 x.toRat - f.fractionBits)

/-- The places that are kept, once the rest is rounded. -/
def places (f : Format) (x : Fraction) : ℕ := (x.scale 2 (-f.lastPlace x)).nearestEven

/-- A number with a smaller unit lies below all of those with a larger one. -/
theorem Canonical.rational_lt {significand : ℕ} {exponent last : ℤ}
    (canonical : f.Canonical significand exponent) (small : exponent < last) :
    rational significand exponent < rational (2 ^ f.fractionBits) last := by
  have lt : (significand : ℚ) < 2 ^ (f.fractionBits + 1) := by exact_mod_cast canonical.lt
  calc rational significand exponent < 2 ^ (f.fractionBits + 1) * 2 ^ exponent :=
        mul_lt_mul_of_pos_right lt (by positivity)
    _ = 2 ^ f.fractionBits * 2 ^ (exponent + 1) := by
        rw [zpow_add_one₀ two_ne_zero, pow_succ]
        ring
    _ ≤ 2 ^ f.fractionBits * 2 ^ last :=
        mul_le_mul_of_nonneg_left (zpow_le_zpow_right₀ one_le_two small) (by positivity)
    _ = rational (2 ^ f.fractionBits) last := by
        rw [rational]
        push_cast
        ring

section Rounding

variable {x : Fraction}

theorem abs_rational_sub (n : ℕ) (last : ℤ) :
    |rational n last - x.toRat| = |(n : ℚ) - (x.scale 2 (-last)).toRat| * 2 ^ last := by
  have power : (0 : ℚ) < 2 ^ last := by positivity
  have units : x.toRat = (x.scale 2 (-last)).toRat * 2 ^ last := by
    rw [Fraction.toRat_scale, Nat.cast_ofNat, mul_assoc, ← zpow_add₀ two_ne_zero, neg_add_cancel,
      zpow_zero, mul_one]
  rw [rational]
  nth_rewrite 1 [units]
  rw [← sub_mul, abs_mul, abs_of_pos power]

section

variable (positive : 0 < x.toRat)
include positive

/-- The highest place of a fraction is kept, unless that is less than the least one. -/
theorem le_scale_lastPlace (above : f.least < f.lastPlace x) :
    2 ^ f.fractionBits ≤ (x.scale 2 (-f.lastPlace x)).toRat := by
  have log : (f.fractionBits : ℤ) + f.lastPlace x ≤ Int.log 2 x.toRat := by
    unfold lastPlace at above ⊢
    omega
  rw [← Int.zpow_le_iff_le_log Nat.one_lt_two positive, Nat.cast_ofNat] at log
  rw [Fraction.toRat_scale, Nat.cast_ofNat, zpow_neg, ← div_eq_mul_inv, le_div_iff₀ (by positivity)]
  rwa [zpow_add₀ two_ne_zero, zpow_natCast] at log

theorem scale_lastPlace_lt :
    (x.scale 2 (-f.lastPlace x)).toRat < 2 ^ (f.fractionBits + 1) := by
  have log : Int.log 2 x.toRat < (f.fractionBits + 1 : ℕ) + f.lastPlace x := by
    unfold lastPlace
    omega
  rw [← Int.lt_zpow_iff_log_lt Nat.one_lt_two positive, Nat.cast_ofNat] at log
  rw [Fraction.toRat_scale, Nat.cast_ofNat, zpow_neg, ← div_eq_mul_inv, div_lt_iff₀ (by positivity)]
  rwa [zpow_add₀ two_ne_zero, zpow_natCast] at log

end

variable (den : 0 < x.den) (positive : 0 < x.toRat)
include den positive

theorem round_of_pos (negative : Bool) :
    f.round negative x =
      f.signBit negative + min f.infinity (f.pattern (f.places x) (f.lastPlace x)) := by
  have num := Fraction.num_pos positive
  rw [round, if_neg num.ne', Fraction.leading_eq Nat.one_lt_two num den]
  rfl

theorem round_of_last (negative : Bool) {last : ℤ} {n : ℕ} (h : f.lastPlace x = last)
    (close : |x.toRat * 2 ^ (-last) - n| < 1 / 2) :
    f.round negative x = f.signBit negative + min f.infinity (f.pattern n last) := by
  have kept : f.places x = n := by
    rw [places, h]
    apply Fraction.nearestEven_eq (Fraction.den_scale_pos den Nat.two_pos _)
    rw [Fraction.toRat_scale]
    exact close
  rw [round_of_pos den positive, kept, h]

/-- The places make a significand, or carry to one place more. -/
theorem canonical_places :
    f.Canonical (f.places x) (f.lastPlace x) ∨ f.places x = 2 ^ (f.fractionBits + 1) := by
  have near := Fraction.abs_nearestEven_sub_le
    (Fraction.den_scale_pos den Nat.two_pos (-f.lastPlace x))
  have high := scale_lastPlace_lt (f := f) positive
  rw [abs_le, ← places] at near
  have atMost : f.places x < 2 ^ (f.fractionBits + 1) + 1 := by
    have : (f.places x : ℚ) < (2 ^ (f.fractionBits + 1) + 1 : ℕ) := by
      push_cast
      linarith
    exact_mod_cast this
  rcases Nat.lt_or_ge (f.places x) (2 ^ (f.fractionBits + 1)) with lt | carry
  · refine .inl ⟨lt, le_max_left _ _, fun above => ?_⟩
    have low := le_scale_lastPlace positive above
    have atLeast : ((2 ^ f.fractionBits : ℕ) : ℚ) < (f.places x + 1 : ℕ) := by
      push_cast
      linarith
    have atLeast : 2 ^ f.fractionBits < f.places x + 1 := by exact_mod_cast atLeast
    omega
  · exact .inr (by omega)

/-- No number of the format is nearer than the one that is rounded to, and of two as near the one
with the even last place is taken. -/
theorem places_nearest {significand : ℕ} {exponent : ℤ}
    (canonical : f.Canonical significand exponent) :
    |rational (f.places x) (f.lastPlace x) - x.toRat| ≤ |rational significand exponent - x.toRat| ∧
      (|rational significand exponent - x.toRat| =
          |rational (f.places x) (f.lastPlace x) - x.toRat| →
        rational significand exponent = rational (f.places x) (f.lastPlace x) ∨
          f.places x % 2 = 0) := by
  have den' := Fraction.den_scale_pos den Nat.two_pos (-f.lastPlace x)
  have power : (0 : ℚ) < 2 ^ f.lastPlace x := by positivity
  rcases le_or_gt (f.lastPlace x) exponent with large | small
  · -- The other number is a whole number of the same units.
    obtain ⟨k, exponent_eq⟩ : ∃ k : ℕ, exponent = f.lastPlace x + k :=
      ⟨(exponent - f.lastPlace x).toNat, by omega⟩
    have units : rational significand exponent =
        rational (significand * 2 ^ k) (f.lastPlace x) := by
      rw [rational, rational, exponent_eq, zpow_add₀ two_ne_zero, zpow_natCast]
      push_cast
      ring
    obtain ⟨nearest, tie⟩ := Fraction.nearestEven_nearest den' (significand * 2 ^ k)
    rw [units, abs_rational_sub, abs_rational_sub]
    refine ⟨mul_le_mul_of_nonneg_right nearest power.le, fun same => ?_⟩
    rcases tie (mul_right_cancel₀ power.ne' same) with equal | even
    · exact .inl (congrArg (rational · (f.lastPlace x)) equal)
    · exact .inr even
  · -- The other number lies below a whole number of units that lies below the fraction.
    have above : f.least < f.lastPlace x := lt_of_le_of_lt canonical.least_le small
    have lower := canonical.rational_lt small
    have upper : rational (2 ^ f.fractionBits) (f.lastPlace x) ≤ x.toRat := by
      have low := le_scale_lastPlace positive above
      rw [Fraction.toRat_scale, Nat.cast_ofNat, zpow_neg, ← div_eq_mul_inv, le_div_iff₀ power] at low
      rw [rational]
      exact_mod_cast low
    have nearest := (Fraction.nearestEven_nearest den' (2 ^ f.fractionBits)).1
    have nearer : |rational (f.places x) (f.lastPlace x) - x.toRat| <
        |rational significand exponent - x.toRat| := by
      calc |rational (f.places x) (f.lastPlace x) - x.toRat|
          ≤ |rational (2 ^ f.fractionBits) (f.lastPlace x) - x.toRat| := by
            rw [abs_rational_sub, abs_rational_sub]
            exact mul_le_mul_of_nonneg_right nearest power.le
        _ < |rational significand exponent - x.toRat| := by
            rw [abs_of_nonpos (by linarith), abs_of_neg (by linarith)]
            linarith
    exact ⟨nearer.le, fun same => absurd same nearer.ne'⟩

/-- What is near a number rounds to its pattern. -/
theorem round_eq (negative : Bool) {significand : ℕ} {exponent : ℤ}
    (canonical : f.Canonical significand exponent)
    (finite : f.pattern significand exponent < f.infinity)
    (near : f.Near significand exponent x.toRat) :
    f.round negative x = f.signBit negative + f.pattern significand exponent := by
  set y := x.toRat * 2 ^ (-exponent) with y_eq
  have x_eq : x.toRat = y * 2 ^ exponent := by
    rw [y_eq, mul_assoc, ← zpow_add₀ two_ne_zero, neg_add_cancel, zpow_zero, mul_one]
  have power : (0 : ℚ) < 2 ^ exponent := by positivity
  have close := near.close
  rw [← y_eq, abs_lt] at close
  have lt : (significand : ℚ) + 1 ≤ 2 ^ (f.fractionBits + 1) := by exact_mod_cast canonical.lt
  have log_lt : Int.log 2 x.toRat < f.fractionBits + 1 + exponent := by
    rw [← Int.lt_zpow_iff_log_lt Nat.one_lt_two positive, x_eq, Nat.cast_ofNat,
      zpow_add₀ two_ne_zero]
    apply mul_lt_mul_of_pos_right _ power
    have : y < (2 : ℚ) ^ (f.fractionBits + 1) := by linarith
    exact_mod_cast this
  by_cases inside : (2 : ℚ) ^ f.fractionBits ≤ y ∨ exponent = f.least
  · have last : f.lastPlace x = exponent := by
      unfold lastPlace
      rcases inside with large | least
      · have le_log : f.fractionBits + exponent ≤ Int.log 2 x.toRat := by
          rw [← Int.zpow_le_iff_le_log Nat.one_lt_two positive, x_eq, Nat.cast_ofNat,
            zpow_add₀ two_ne_zero]
          apply mul_le_mul_of_nonneg_right _ power.le
          exact_mod_cast large
        have := canonical.least_le
        omega
      · omega
    rw [round_of_last den positive negative last near.close, min_eq_right finite.le]
  · -- Below a power of two the leading exponent is one less, and the places are twice as many.
    obtain ⟨small, above⟩ := not_or.1 inside
    have small : y < 2 ^ f.fractionBits := not_le.1 small
    have above : f.least < exponent := lt_of_le_of_ne canonical.least_le (Ne.symm above)
    have power_of_two : significand = 2 ^ f.fractionBits := by
      have : (significand : ℚ) < (2 ^ f.fractionBits + 1 : ℕ) := by push_cast; linarith
      have : significand < 2 ^ f.fractionBits + 1 := by exact_mod_cast this
      have := canonical.normal above
      omega
    have closer := near.closer power_of_two above
    rw [← y_eq, power_of_two] at closer
    push_cast at closer
    have one_le : (1 : ℚ) ≤ 2 ^ f.fractionBits := one_le_pow₀ one_le_two
    have last : f.lastPlace x = exponent - 1 := by
      unfold lastPlace
      have log : Int.log 2 x.toRat = f.fractionBits + exponent - 1 := by
        apply Fraction.log_eq Nat.one_lt_two positive
        · rw [x_eq, Nat.cast_ofNat, zpow_sub_one₀ two_ne_zero, zpow_add₀ two_ne_zero, zpow_natCast,
            mul_right_comm]
          apply mul_le_mul_of_nonneg_right _ power.le
          linarith
        · rw [x_eq, Nat.cast_ofNat, sub_add_cancel, zpow_add₀ two_ne_zero, zpow_natCast]
          exact mul_lt_mul_of_pos_right small power
      omega
    have twice : x.toRat * 2 ^ (-(exponent - 1)) = 2 * y := by
      rw [y_eq, neg_sub, sub_eq_add_neg, zpow_add₀ two_ne_zero]
      ring
    have places : |x.toRat * 2 ^ (-(exponent - 1)) - (2 ^ (f.fractionBits + 1) : ℕ)| < 1 / 2 := by
      rw [twice, abs_lt]
      push_cast
      rw [pow_succ]
      constructor <;> linarith
    rw [round_of_last den positive negative last places, pattern_carry above, power_of_two,
      min_eq_right (power_of_two ▸ finite).le]

end Rounding

end Format

end Emitter.Binary
