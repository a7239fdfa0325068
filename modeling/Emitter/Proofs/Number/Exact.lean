import Emitter.Proofs.Number.Layout

/-! The layouts of general notation are exact. The text of a finite number that is not zero is a
numeral for the decimal that the number is rounded to, whatever its exponent is and whether rounding
has carried or not, and it is as short as its layout allows. -/

namespace Emitter.General

/-! ## Rounding -/

/-- The decimal of so many significant digits that is nearest to a positive number; of two as near,
the one whose last digit is even. -/
def RoundsTo (precision : ℕ) (v d : ℚ) : Prop :=
  ∃ (e : ℤ) (n : ℕ), 10 ^ e ≤ v ∧ v < 10 ^ (e + 1) ∧ d = n * 10 ^ (e - (precision - 1)) ∧
    ∀ m : ℕ, |d - v| ≤ |m * 10 ^ (e - (precision - 1)) - v| ∧
      (|m * 10 ^ (e - (precision - 1)) - v| = |d - v| → m = n ∨ n % 2 = 0)

theorem roundsTo_significant {precision : ℕ} (h : 0 < precision) {x : Fraction} (den : 0 < x.den)
    (positive : 0 < x.toRat) :
    RoundsTo precision x.toRat ((significant precision x).toRat precision) := by
  set e := Int.log 10 x.toRat with e_eq
  have nearest := Fraction.nearestEven_nearest
    (Fraction.den_scale_pos den (by decide : 0 < 10) (precision - 1 - e))
  rw [Fraction.toRat_scale, Nat.cast_ofNat] at nearest
  rw [toRat_significant h x, leading_ten den positive, ← e_eq]
  set n := (x.scale 10 (precision - 1 - e)).nearestEven
  have unit : (0 : ℚ) < 10 ^ (e - (precision - 1)) := by positivity
  have back : x.toRat * 10 ^ ((precision : ℤ) - 1 - e) * 10 ^ (e - (precision - 1)) = x.toRat := by
    rw [mul_assoc, ← zpow_add₀ (by norm_num : (10 : ℚ) ≠ 0), sub_add_sub_cancel', sub_self]
    simp
  -- Distances are counted in units of the last digit.
  have distance : ∀ m : ℕ, |m * 10 ^ (e - (precision - 1)) - x.toRat| =
      |m - x.toRat * 10 ^ ((precision : ℤ) - 1 - e)| * 10 ^ (e - (precision - 1)) := by
    intro m
    rw [← abs_of_pos unit, ← abs_mul, abs_of_pos unit, sub_mul, back]
  refine ⟨e, n, by exact_mod_cast Int.zpow_log_le_self (by decide) positive,
    by exact_mod_cast Int.lt_zpow_succ_log_self (by decide) x.toRat, rfl, fun m => ?_⟩
  rw [distance, distance]
  exact ⟨mul_le_mul_of_nonneg_right (nearest m).1 unit.le,
    fun tie => (nearest m).2 (mul_right_cancel₀ unit.ne' tie)⟩

/-- The first digit counts for the power of ten of the exponent. -/
theorem Decimal.Fits.exponent_eq {precision : ℕ} {d : Decimal} (fits : d.Fits precision)
    (h : 0 < precision) :
    10 ^ d.exponent ≤ d.toRat precision ∧ d.toRat precision < 10 ^ (d.exponent + 1) := by
  have ten : (10 : ℚ) ≠ 0 := by norm_num
  have unit : (0 : ℚ) < 10 ^ (d.exponent - (precision - 1)) := by positivity
  have le : (10 : ℚ) ^ (precision - 1) ≤ d.digits := by exact_mod_cast fits.le
  have lt : (d.digits : ℚ) < 10 ^ precision := by exact_mod_cast fits.lt
  have low : (10 : ℚ) ^ d.exponent =
      10 ^ (precision - 1) * 10 ^ (d.exponent - (precision - 1)) := by
    rw [← zpow_natCast, ← zpow_add₀ ten]
    congr 1
    omega
  have high : (10 : ℚ) ^ (d.exponent + 1) =
      10 ^ precision * 10 ^ (d.exponent - (precision - 1)) := by
    rw [← zpow_natCast, ← zpow_add₀ ten]
    congr 1
    omega
  rw [low, high]
  exact ⟨mul_le_mul_of_nonneg_right le unit.le, mul_lt_mul_of_pos_right lt unit⟩

/-! ## Layouts -/

/-- The layout of a decimal with this exponent: with one digit before the point and an exponent
where the exponent is small or large, positional elsewhere, and without zeros at the end of a
fraction. -/
structure LaidOut (precision : ℕ) (e : ℤ) (n : Json.Number) : Prop where
  scientific : n.exponent.isSome ↔ e ≤ -5 ∨ precision ≤ e
  single : n.exponent.isSome → ∃ d ≠ 0, n.whole = [d]
  exponent : ∀ x ∈ n.exponent, x.1 = decide (e < 0) ∧ Text.number 10 x.2 = e.natAbs ∧
    2 ≤ x.2.length
  fraction : ∀ ds ∈ n.fraction, ds ≠ [] ∧ ds.getLast? ≠ some 0
  digits : ((n.whole ++ n.fraction.getD []).dropWhile (· == 0)).length ≤ precision

/-- The zeros at the end have gone. -/
theorem getLast?_significantDigits (n : ℕ) : (significantDigits n).getLast? ≠ some 0 := by
  rw [significantDigits, List.getLast?_reverse]
  intro zero
  have kept := List.head?_dropWhile_not (· == 0) (Nat.digits 10 n)
  rw [zero] at kept
  exact absurd kept (by simp)

theorem length_exponentNumber (e : ℕ) : 2 ≤ (exponentNumber e).length := by
  rw [exponentNumber, List.length_append, List.length_replicate]
  omega

theorem dropWhile_zeros (k : ℕ) (ds : List ℕ) :
    (List.replicate k 0 ++ ds).dropWhile (· == 0) = ds.dropWhile (· == 0) := by
  induction k with
  | zero => rfl
  | succ k ih => simp [List.replicate_succ, ih]

/-- What is cut off at a point ends as the digits do. -/
theorem getLast?_drop_ne {ds : List ℕ} {k : ℕ} (long : k < ds.length)
    (last : ds.getLast? ≠ some 0) : ds.drop k ≠ [] ∧ (ds.drop k).getLast? ≠ some 0 := by
  rw [List.getLast?_drop, if_neg (by omega)]
  exact ⟨by simpa using long, last⟩

theorem laidOut_numeral (negative : Bool) {precision : ℕ} {d : Decimal} (fits : d.Fits precision) :
    LaidOut precision d.exponent (numeral negative precision d) := by
  obtain ⟨first, more, significant, nonzero⟩ := significantDigits_cons fits.digits_pos
  have short := (significantDigits_fits fits).1
  have last := getLast?_significantDigits d.digits
  have few : ((significantDigits d.digits).dropWhile (· == 0)).length ≤ precision :=
    (List.dropWhile_sublist _).length_le.trans short
  have whole : (significantDigits d.digits).take 1 = [first] := by rw [significant]; rfl
  have some_ : significantDigits d.digits ≠ [] := by rw [significant]; exact List.cons_ne_nil _ _
  unfold numeral
  generalize significantDigits d.digits = ds at *
  dsimp only
  split
  · next outside =>
    rw [whole]
    refine ⟨iff_of_true rfl outside, fun _ => ⟨first, nonzero, rfl⟩, ?_, fun fraction cut => ?_, ?_⟩
    · rintro _ ⟨⟩
      exact ⟨rfl, number_exponentNumber _, length_exponentNumber _⟩
    · split at cut
      · cases cut
      · next long =>
        cases cut
        exact getLast?_drop_ne (by omega) last
    · have parts : [first] ++ (if ds.length ≤ 1 then none else some (ds.drop 1)).getD [] = ds := by
        rw [← whole]
        split
        · next one => simpa using one
        · exact List.take_append_drop 1 ds
      rwa [parts]
  next inside =>
  split
  · refine ⟨iff_of_false Bool.false_ne_true inside, nofun, nofun, ?_, ?_⟩
    · rintro _ ⟨⟩
      refine ⟨List.append_ne_nil_of_right_ne_nil _ some_, ?_⟩
      rwa [List.getLast?_append_of_ne_nil _ some_]
    · have zeros : [0] ++ (List.replicate (d.exponent.natAbs - 1) 0 ++ ds) =
          List.replicate (d.exponent.natAbs - 1 + 1) 0 ++ ds := rfl
      rwa [Option.getD_some, zeros, dropWhile_zeros]
  next above =>
  split
  · next fills =>
    refine ⟨iff_of_false Bool.false_ne_true inside, nofun, nofun, nofun, ?_⟩
    refine (List.dropWhile_sublist _).length_le.trans ?_
    rw [Option.getD_none, List.append_nil, List.length_append, List.length_replicate]
    omega
  · next long =>
    refine ⟨iff_of_false Bool.false_ne_true inside, nofun, nofun, ?_, ?_⟩
    · rintro _ ⟨⟩
      exact getLast?_drop_ne (by omega) last
    · rwa [Option.getD_some, List.take_append_drop]

/-! ## Texts -/

/-- A sign stands first, and digits are no sign. -/
theorem head?_text {n : Json.Number} (h : n.WellFormed) :
    n.text.head? = some '-' ↔ n.negative = true := by
  obtain ⟨d, ds, whole⟩ := List.exists_cons_of_ne_nil h.whole.1
  have digit : ∀ d < 10, Nat.digitChar d ≠ '-' := by decide
  have unsigned := digit d (h.whole.2 d (whole ▸ List.mem_cons_self))
  rw [Json.Number.text, whole]
  cases n.negative <;> simp [Json.digitChars, unsigned]

/-- The text of a finite number that is not zero, in any precision. It is a numeral for exactly the
decimal that the number is rounded to, and the exponent of that decimal, also after a carry, says
how it is laid out. -/
theorem text_exact (precision : ℕ) {bits : UInt64} {negative : Bool} {significand : ℕ}
    {exponent : ℤ} (value : Binary.double.value bits.toNat = .finite negative significand exponent)
    (nonzero : significand ≠ 0) :
    ∃ (d : ℚ) (e : ℤ) (n : Json.Number),
      RoundsTo (max precision 1) (Binary.rational significand exponent) d ∧
      (10 ^ e ≤ d ∧ d < 10 ^ (e + 1)) ∧
      (text precision (Binary.double.value bits.toNat)).toList = n.text ∧
      Json.Reader.number n.text = some (n, []) ∧
      (n.negative = negative ∧ n.exact.toRat = d) ∧
      (n.text.head? = some '-' ↔ negative = true) ∧
      LaidOut (max precision 1) e n := by
  have atLeastOne : 0 < max precision 1 := by omega
  have den := Binary.den_magnitude_pos significand exponent
  have size := Binary.rational_pos (Nat.pos_of_ne_zero nonzero) exponent
  rw [← Binary.toRat_magnitude] at size
  have rounds := roundsTo_significant atLeastOne den size
  have fits := fits_significant atLeastOne den size
  rw [Binary.toRat_magnitude] at rounds
  set d := significant (max precision 1) (Binary.magnitude significand exponent)
  have wellFormed := wellFormed_numeral negative (max precision 1) fits.digits_pos
  have sign := negative_numeral negative (max precision 1) d
  refine ⟨_, d.exponent, numeral negative (max precision 1) d, rounds,
    fits.exponent_eq atLeastOne, ?_, Json.Reader.number_text wellFormed,
    ⟨sign, toRat_numeral negative fits⟩, ?_, laidOut_numeral negative fits⟩
  · rw [value, text, if_neg nonzero, String.toList_ofList]
    exact (text_numeral negative _ fits.digits_pos).symm
  · rw [head?_text wellFormed, sign]

/-- A tie that is carried into a new digit, and the negative number next to zero. -/
theorem text_exact_carry :
    (Binary.double.value (0x4023000000000000 : UInt64).toNat =
        .finite false 0x13000000000000 (-49) ∧
      Binary.double.value (0x8000000000000001 : UInt64).toNat = .finite true 1 (-1074)) ∧
      (∃ (d : ℚ) (e : ℤ) (n : Json.Number),
        RoundsTo 1 (Binary.rational 0x13000000000000 (-49)) d ∧ "1E+01".toList = n.text ∧
        n.exact.toRat = d ∧ LaidOut 1 e n) ∧
      ∃ (d : ℚ) (e : ℤ) (n : Json.Number),
        RoundsTo 3 (Binary.rational 1 (-1074)) d ∧ "-4.94E-324".toList = n.text ∧
        n.exact.toRat = d ∧ n.negative = true ∧ LaidOut 3 e n := by
  have tie : Binary.double.value (0x4023000000000000 : UInt64).toNat =
      .finite false 0x13000000000000 (-49) := by decide +kernel
  have least : Binary.double.value (0x8000000000000001 : UInt64).toNat =
      .finite true 1 (-1074) := by decide +kernel
  have tie_text : text 0 (Binary.double.value (0x4023000000000000 : UInt64).toNat) = "1E+01" := by
    decide +kernel
  have least_text : text 3 (Binary.double.value (0x8000000000000001 : UInt64).toNat) =
      "-4.94E-324" := by decide +kernel
  obtain ⟨d, e, n, rounds, -, written, -, ⟨-, exact⟩, -, laidOut⟩ := text_exact 0 tie (by decide)
  obtain ⟨d', e', n', rounds', -, written', -, ⟨sign', exact'⟩, -, laidOut'⟩ :=
    text_exact 3 least (by decide)
  rw [tie_text] at written
  rw [least_text] at written'
  exact ⟨⟨tie, least⟩, ⟨d, e, n, rounds, written, exact, laidOut⟩,
    d', e', n', rounds', written', exact', sign', laidOut'⟩

end Emitter.General
