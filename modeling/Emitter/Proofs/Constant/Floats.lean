import Emitter.Constant.Basic
import Emitter.Proofs.Number.Layout

/-! Float constants. The text of a finite pattern is a numeral, and the pattern nearest to the exact
value of the numeral is the pattern itself: nine digits suffice for singles, seventeen for doubles. -/

namespace Emitter

namespace Binary.Format

/-- The exponent field is not the one of infinities. -/
def IsFinite (f : Format) (bits : ℕ) : Prop :=
  bits / 2 ^ f.fractionBits % 2 ^ f.exponentBits ≠ 2 ^ f.exponentBits - 1

theorem value_of_isFinite {f : Format} {bits : ℕ} (h : f.IsFinite bits) :
    ∃ negative significand exponent, f.value bits = .finite negative significand exponent := by
  unfold value
  dsimp only
  rw [if_neg h]
  split
  · exact ⟨_, _, _, rfl⟩
  · exact ⟨_, _, _, rfl⟩

/-- Zero is rounded by itself, as it has no leading digit. -/
theorem round_zero {f : Format} {negative : Bool} {x : Fraction} (h : x.num = 0) :
    f.round negative x = f.signBit negative := by
  rw [round, if_pos h]

theorem pattern_zero {f : Format} {exponent : ℤ} (canonical : f.Canonical 0 exponent) :
    f.pattern 0 exponent = 0 := by
  have least : exponent = f.least := by
    rcases canonical.least_le.eq_or_lt with same | above
    · exact same.symm
    · have := canonical.normal above
      have : 0 < 2 ^ f.fractionBits := Nat.two_pow_pos _
      omega
  simp [pattern, least]

end Binary.Format

namespace General

/-- With enough digits a finite pattern is read back from its text. -/
theorem read_text {f : Binary.Format} {precision : ℕ} (h : 0 < precision)
    (enough : 2 ^ (f.fractionBits + 1) < 10 ^ (precision - 1)) {bits : ℕ}
    (word : bits < 2 ^ (f.fractionBits + f.exponentBits + 1)) (finite : f.IsFinite bits) :
    ∃ n, Json.Reader.number (text precision (f.value bits)).toList = some (n, []) ∧
      f.round n.negative n.exact = bits := by
  obtain ⟨negative, significand, exponent, value⟩ := Binary.Format.value_of_isFinite finite
  obtain ⟨canonical, below, bits_eq⟩ := Binary.Format.pattern_of_value word value
  have atLeastOne : max precision 1 = precision := by omega
  rw [value, text, atLeastOne, String.toList_ofList, bits_eq]
  rcases Nat.eq_zero_or_pos significand with rfl | positive
  · obtain ⟨n, read, sign, num⟩ := read_zero negative
    refine ⟨n, read, ?_⟩
    rw [Binary.Format.round_zero num, Binary.Format.pattern_zero canonical, sign, Nat.add_zero]
  · have den := Binary.den_magnitude_pos significand exponent
    have size : 0 < (Binary.magnitude significand exponent).toRat := by
      rw [Binary.toRat_magnitude]
      exact Binary.rational_pos positive exponent
    have fits := fits_significant h den size
    have near := near_significant h enough canonical positive
    obtain ⟨n, read, sign, exact⟩ := read_layout negative fits
    rw [← exact] at near
    have printed : 0 < n.exact.toRat := by
      rw [exact]
      exact fits.toRat_pos
    refine ⟨n, ?_, ?_⟩
    · rw [if_neg positive.ne', read]
    · rw [Binary.Format.round_eq n.den_exact_pos printed _ canonical below near, sign]

end General

namespace Constant

/-- Float constants are read back from their text, bit by bit. -/
theorem text_float_reads_back :
    (∀ bits : UInt64, Binary.double.IsFinite bits.toNat →
      ∃ n, Json.Reader.number (float64 bits).text.toList = some (n, []) ∧
        Binary.double.round n.negative n.exact = bits.toNat) ∧
    ∀ bits : UInt32, Binary.single.IsFinite bits.toNat →
      ∃ n, Json.Reader.number (float32 bits).text.toList = some (n, []) ∧
        Binary.single.round n.negative n.exact = bits.toNat := by
  constructor
  · intro bits finite
    have enough : 2 ^ (Binary.double.fractionBits + 1) < 10 ^ (General.doubleDigits - 1) := by
      decide
    exact General.read_text (by decide) enough bits.toNat_lt finite
  · intro bits finite
    have enough : 2 ^ (Binary.single.fractionBits + 1) < 10 ^ (General.singleDigits - 1) := by
      decide
    exact General.read_text (by decide) enough bits.toNat_lt finite

/-- The double next to one tenth, and the negative single next to zero. -/
theorem text_float_reads_back_tenth :
    (Binary.double.IsFinite (0x3FB999999999999A : UInt64).toNat ∧
      Binary.single.IsFinite (0x80000001 : UInt32).toNat) ∧
      (float64 0x3FB999999999999A).text = "0.10000000000000001" ∧
      (∃ n, Json.Reader.number "0.10000000000000001".toList = some (n, []) ∧
        Binary.double.round n.negative n.exact = 0x3FB999999999999A) ∧
      (float32 0x80000001).text = "-1.40129846E-45" ∧
      ∃ n, Json.Reader.number "-1.40129846E-45".toList = some (n, []) ∧
        Binary.single.round n.negative n.exact = 0x80000001 := by
  have tenth : Binary.double.IsFinite (0x3FB999999999999A : UInt64).toNat := by
    unfold Binary.Format.IsFinite
    decide
  have least : Binary.single.IsFinite (0x80000001 : UInt32).toNat := by
    unfold Binary.Format.IsFinite
    decide
  have tenth_text : (float64 0x3FB999999999999A).text = "0.10000000000000001" := by decide +kernel
  have least_text : (float32 0x80000001).text = "-1.40129846E-45" := by decide +kernel
  have tenth_read := text_float_reads_back.1 0x3FB999999999999A tenth
  have least_read := text_float_reads_back.2 0x80000001 least
  rw [tenth_text] at tenth_read
  rw [least_text] at least_read
  exact ⟨⟨tenth, least⟩, tenth_text, tenth_read, least_text, least_read⟩

end Constant

end Emitter
