import Emitter.Constant.Integer
import Mathlib

/-! Integer constants are numbers in two's complement, at every width. The value depends on the low
bits alone: it is what they say modulo the power of two, in the range that the width and the
signedness give (`signedValue_eq`, `unsignedValue_eq`), and the text is its decimal numeral. -/

namespace Emitter.IntegerConstant

/-- What a constant stands for. -/
def value (c : IntegerConstant) : ℤ :=
  if c.signed then c.signedValue else c.unsignedValue

/-! ## Widths -/

theorem width_eq (c : IntegerConstant) :
    c.width = if 1 ≤ c.sizeBits.toNat ∧ c.sizeBits.toNat ≤ 64 then c.sizeBits.toNat else 64 := by
  simp only [width, UInt32.le_iff_toNat_le]
  rfl

theorem width_pos (c : IntegerConstant) : 0 < c.width := by
  rw [width_eq]
  split <;> omega

theorem width_le (c : IntegerConstant) : c.width ≤ 64 := by
  rw [width_eq]
  split <;> omega

/-- A power of two below the word is not lost, and taking one from it leaves the ones below. -/
theorem toNat_mask {w : ℕ} (h : w < 64) :
    (1#64 <<< w).toNat = 2 ^ w ∧ ((1#64 <<< w) - 1#64).toNat = 2 ^ w - 1 := by
  have below : 2 ^ w < 2 ^ 64 := Nat.pow_lt_pow_right (by decide) h
  have positive : 0 < 2 ^ w := Nat.two_pow_pos w
  have power : (1#64 <<< w).toNat = 2 ^ w := by
    rw [BitVec.toNat_shiftLeft, BitVec.toNat_ofNat, Nat.shiftLeft_eq]
    simpa using Nat.mod_eq_of_lt below
  have one_le : 1#64 ≤ 1#64 <<< w := by
    rw [BitVec.le_def, power]
    exact positive
  exact ⟨power, by rw [BitVec.toNat_sub_of_le one_le, power]; rfl⟩

/-! ## Values -/

theorem unsignedValue_eq (c : IntegerConstant) :
    c.unsignedValue = c.bits.toNat % 2 ^ c.width := by
  unfold unsignedValue
  split
  · next whole =>
    rw [whole]
    exact (Nat.mod_eq_of_lt c.bits.toNat_lt).symm
  · next narrow =>
    have below : c.width < 64 := lt_of_le_of_ne c.width_le narrow
    rw [BitVec.toNat_and, (toNat_mask below).2, Nat.and_two_pow_sub_one_eq_mod]
    rfl

/-- Scaling by a power of two goes through the balanced remainder. -/
theorem bmod_scaled (s : ℕ) {m : ℕ} (even : 2 ∣ m) (positive : 0 < m) (a : ℤ) :
    (a * 2 ^ s).bmod (2 ^ s * m) = a.bmod m * 2 ^ s := by
  obtain ⟨half, rfl⟩ := even
  have scale : (0 : ℤ) < 2 ^ s := by positivity
  have low := Int.le_bmod (x := a) positive
  have high := Int.bmod_lt (x := a) positive
  obtain ⟨k, quotient⟩ : ((2 * half : ℕ) : ℤ) ∣ a.bmod (2 * half) - a := Int.dvd_bmod_sub_self
  generalize a.bmod (2 * half) = r at low high quotient
  have low' : -(half : ℤ) ≤ r := by push_cast at low; omega
  have high' : r < half := by push_cast at high; omega
  have lower : -((half : ℤ) * 2 ^ s) ≤ r * 2 ^ s := by nlinarith
  have upper : r * 2 ^ s < half * 2 ^ s := by nlinarith
  have whole : ((2 ^ s * (2 * half) : ℕ) : ℤ) = 2 * (half * 2 ^ s) := by push_cast; ring
  rw [Int.bmod_eq_iff (by positivity)]
  refine ⟨?_, ?_, ?_⟩
  · rw [whole]; omega
  · rw [whole]; omega
  · refine ⟨k, ?_⟩
    rw [← sub_mul, quotient]
    push_cast
    ring

theorem signedValue_eq_bmod (c : IntegerConstant) :
    c.signedValue = (c.bits.toNat : ℤ).bmod (2 ^ c.width) := by
  have positive := c.width_pos
  have scale : (2 : ℤ) ^ (64 - c.width) ≠ 0 := by positivity
  have even : 2 ∣ 2 ^ c.width := dvd_pow_self 2 positive.ne'
  have word : 2 ^ 64 = 2 ^ (64 - c.width) * 2 ^ c.width := by
    rw [← pow_add, Nat.sub_add_cancel c.width_le]
  unfold signedValue
  rw [BitVec.toInt_sshiftRight, BitVec.toInt_shiftLeft, Nat.shiftLeft_eq, word,
    Nat.cast_mul, Nat.cast_pow, Nat.cast_ofNat,
    bmod_scaled _ even (Nat.two_pow_pos _), Int.shiftRight_eq_div_pow]
  push_cast
  exact Int.mul_ediv_cancel _ scale

/-- Of the numbers that agree with the bits modulo the power of two, the one in the range. -/
theorem eq_signedValue_iff (c : IntegerConstant) (v : ℤ) :
    v = c.signedValue ↔ v ≡ c.bits.toNat [ZMOD 2 ^ c.width] ∧
      -2 ^ (c.width - 1) ≤ v ∧ v < 2 ^ (c.width - 1) := by
  have half : (2 ^ c.width : ℤ) = 2 * 2 ^ (c.width - 1) := by
    rw [← pow_succ', Nat.sub_add_cancel c.width_pos]
  rw [signedValue_eq_bmod, eq_comm, Int.bmod_eq_iff (Nat.two_pow_pos _), Int.modEq_comm,
    Int.modEq_iff_dvd]
  push_cast
  rw [half]
  constructor
  · rintro ⟨low, high, divides⟩
    exact ⟨divides, by omega, by omega⟩
  · rintro ⟨divides, low, high⟩
    exact ⟨by omega, by omega, divides⟩

/-- What the low bits are is what the values say, in either reading. -/
theorem signedValue_eq_iff {c d : IntegerConstant} (width : c.width = d.width) :
    c.signedValue = d.signedValue ↔ c.unsignedValue = d.unsignedValue := by
  have congruent (c : IntegerConstant) : c.signedValue ≡ c.bits.toNat [ZMOD 2 ^ c.width] :=
    ((c.eq_signedValue_iff _).1 rfl).1
  have low : c.unsignedValue = d.unsignedValue ↔
      (c.bits.toNat : ℤ) ≡ d.bits.toNat [ZMOD 2 ^ c.width] := by
    rw [unsignedValue_eq, unsignedValue_eq, ← width, ← Nat.cast_inj (R := ℤ), Int.ModEq]
    push_cast
    rfl
  rw [low]
  constructor
  · intro same
    exact (congruent c).symm.trans (same ▸ width ▸ congruent d)
  · intro same
    obtain ⟨-, least, greatest⟩ := (c.eq_signedValue_iff _).1 rfl
    rw [eq_signedValue_iff, ← width]
    exact ⟨(congruent c).trans same, least, greatest⟩

/-! ## Texts -/

theorem text_eq (c : IntegerConstant) : c.text = c.value.repr := by
  unfold text value
  split <;> rfl

/-- A constant that stands for a number, and whose text is read as that number. -/
def Denotes (c : IntegerConstant) (v : ℤ) : Prop :=
  c.value = v ∧ c.text.toInt? = some v

theorem denotes_value (c : IntegerConstant) : c.Denotes c.value :=
  ⟨rfl, by rw [text_eq, Int.toInt?_repr]⟩

/-- A signed constant whose word is a number of its range stands for that number. -/
theorem denotes_signed {c : IntegerConstant} {v : ℤ} {w : ℕ} (signed : c.signed = true)
    (width : c.width = w + 1) (word : c.bits.toBitVec.toInt = v) (low : -2 ^ w ≤ v)
    (high : v < 2 ^ w) : c.Denotes v := by
  have whole : v ≡ c.bits.toNat [ZMOD 2 ^ 64] := by
    rw [← word, BitVec.toInt_eq_toNat_bmod, Int.modEq_iff_dvd]
    exact Int.dvd_self_sub_bmod
  have value : c.value = v := by
    rw [value, if_pos signed, eq_comm, eq_signedValue_iff, width]
    exact ⟨whole.of_dvd (pow_dvd_pow 2 (width ▸ c.width_le)), low, high⟩
  exact value ▸ c.denotes_value

theorem denotes_unsigned {c : IntegerConstant} (signed : c.signed = false)
    (fits : c.bits.toNat < 2 ^ c.width) : c.Denotes c.bits.toNat := by
  have value : c.value = c.bits.toNat := by
    rw [value, if_neg (by simp [signed]), unsignedValue_eq, Nat.mod_eq_of_lt fits]
  exact value ▸ c.denotes_value

/-- Constants are numbers in two's complement. A width outside of the word counts as the whole word;
what the shifts and the mask take stays inside it. The unsigned value is the remainder of the bits,
the signed one the only number of the range that agrees with it, and the text is the numeral of the
one that the signedness asks for, so that it tells the low bits. The constants that are made from a
number of one of the types stand for it. -/
theorem twos_complement :
    (∀ c : IntegerConstant,
      (c.width = if 1 ≤ c.sizeBits.toNat ∧ c.sizeBits.toNat ≤ 64 then c.sizeBits.toNat else 64) ∧
      64 - c.width < 64 ∧
      (c.width ≠ 64 → c.width < 64 ∧ (1#64 <<< c.width).toNat = 2 ^ c.width ∧
        ((1#64 <<< c.width) - 1#64).toNat = 2 ^ c.width - 1) ∧
      c.unsignedValue = c.bits.toNat % 2 ^ c.width ∧
      (∀ v, v = c.signedValue ↔ v ≡ c.bits.toNat [ZMOD 2 ^ c.width] ∧
        -2 ^ (c.width - 1) ≤ v ∧ v < 2 ^ (c.width - 1)) ∧
      c.text.toInt? = some (if c.signed then c.signedValue else c.unsignedValue) ∧
      ∀ d : IntegerConstant, c.width = d.width → c.signed = d.signed →
        (c.text = d.text ↔ c.bits.toNat % 2 ^ c.width = d.bits.toNat % 2 ^ c.width)) ∧
    (∀ v, (ofInt8 v).Denotes v.toInt) ∧ (∀ v, (ofInt16 v).Denotes v.toInt) ∧
    (∀ v, (ofInt32 v).Denotes v.toInt) ∧ (∀ v, (ofInt64 v).Denotes v.toInt) ∧
    (∀ v, (ofUInt8 v).Denotes v.toNat) ∧ (∀ v, (ofUInt16 v).Denotes v.toNat) ∧
    (∀ v, (ofUInt32 v).Denotes v.toNat) ∧ ∀ v, (ofUInt64 v).Denotes v.toNat := by
  refine ⟨fun c => ⟨c.width_eq, ?_, fun narrow => ?_, c.unsignedValue_eq, c.eq_signedValue_iff,
    c.denotes_value.2, fun d width signed => ?_⟩, ?_⟩
  · have := c.width_pos
    omega
  · have below : c.width < 64 := lt_of_le_of_ne c.width_le narrow
    exact ⟨below, toNat_mask below⟩
  · have low : c.bits.toNat % 2 ^ c.width = d.bits.toNat % 2 ^ c.width ↔
        c.unsignedValue = d.unsignedValue := by
      rw [unsignedValue_eq, unsignedValue_eq, width]
    rw [low, text_eq, text_eq, Int.repr_inj, value, value, ← signed]
    split
    · exact signedValue_eq_iff width
    · exact Nat.cast_inj
  · exact ⟨fun v => denotes_signed rfl (w := 7) rfl v.toInt_toInt64 v.le_toInt v.toInt_lt,
      fun v => denotes_signed rfl (w := 15) rfl v.toInt_toInt64 v.le_toInt v.toInt_lt,
      fun v => denotes_signed rfl (w := 31) rfl v.toInt_toInt64 v.le_toInt v.toInt_lt,
      fun v => denotes_signed rfl (w := 63) rfl rfl v.le_toInt v.toInt_lt,
      fun v => denotes_unsigned rfl v.toNat_lt, fun v => denotes_unsigned rfl v.toNat_lt,
      fun v => denotes_unsigned rfl v.toNat_lt, fun v => denotes_unsigned rfl v.toNat_lt⟩

/-- Five bits: the highest of them alone, below ones and below zeros, is the least number. -/
theorem twos_complement_five :
    let c : IntegerConstant := ⟨5, true, 0xFFFFFFFFFFFFFFF0⟩
    let d : IntegerConstant := ⟨5, true, 0x30⟩
    (c.width = d.width ∧ c.signed = d.signed) ∧ c.text = d.text ∧ d.signedValue = -16 ∧
      d.unsignedValue = 16 ∧ d.text.toInt? = some (-16) := by
  intro c d
  have agree : c.width = d.width ∧ c.signed = d.signed := by decide
  obtain ⟨-, -, -, -, -, -, same⟩ := twos_complement.1 c
  obtain ⟨-, -, -, unsigned, unique, printed, -⟩ := twos_complement.1 d
  have texts : c.text = d.text := (same d agree.1 agree.2).2 (by decide)
  have least : -16 = d.signedValue := (unique (-16)).2 (by decide)
  have signed : d.signed = true := rfl
  rw [signed, if_pos rfl, ← least] at printed
  exact ⟨agree, texts, least.symm, unsigned.trans (by decide), printed⟩

end Emitter.IntegerConstant
