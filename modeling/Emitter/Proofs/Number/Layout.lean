import Emitter.Number.General
import Emitter.Proofs.Json.Numeral
import Emitter.Proofs.Number.Significant
import Mathlib.Data.List.TakeWhile
import Mathlib.Data.Nat.Digits.Lemmas

/-! General notation as a numeral. A decimal is laid out in one of four ways; in each of them the text
is that of a well-formed numeral that stands for exactly the decimal. -/

namespace Emitter

namespace Text

theorem number_reverse (base : ℕ) (ds : List ℕ) :
    number base ds.reverse = Nat.ofDigits base ds := by
  rw [number, List.foldl_reverse, Nat.ofDigits_eq_foldr]
  congr 1
  funext d n
  simp [add_comm, mul_comm]

theorem number_zeros (base k : ℕ) : number base (List.replicate k 0) = 0 := by
  rw [← List.reverse_replicate, number_reverse, Nat.ofDigits_replicate_zero]

theorem number_zeros_append (base k : ℕ) (ds : List ℕ) :
    number base (List.replicate k 0 ++ ds) = number base ds := by
  rw [number_append, number_zeros, Nat.zero_mul, Nat.zero_add]

theorem number_append_zeros (base k : ℕ) (ds : List ℕ) :
    number base (ds ++ List.replicate k 0) = number base ds * base ^ k := by
  rw [number_append, number_zeros, List.length_replicate, Nat.add_zero]

end Text

namespace Json.Number

theorem toRat_exact (n : Number) : n.exact.toRat = n.coefficient * 10 ^ n.lastPlace := by
  rw [exact, Fraction.toRat_scale, Fraction.toRat_ofNat, Nat.cast_ofNat]

theorem den_exact_pos (n : Number) : 0 < n.exact.den :=
  Fraction.den_scale_pos Nat.one_pos (by decide) _

end Json.Number

namespace General

open Json (digitChars)

/-! ## Digits -/

/-- The digits of a number, the highest first. -/
def decimalDigits (n : ℕ) : List ℕ := if n = 0 then [0] else (Nat.digits 10 n).reverse

theorem toDigits_eq (n : ℕ) : Nat.toDigits 10 n = digitChars (decimalDigits n) := by
  induction n using Nat.strong_induction_on with
  | _ n ih =>
    rw [Nat.toDigits_eq_if (by decide), decimalDigits]
    split
    · next small =>
      rcases Nat.eq_zero_or_pos n with rfl | positive
      · rfl
      · rw [if_neg positive.ne', Nat.digits_of_lt 10 n positive.ne' small]
        rfl
    · next large =>
      have smaller : n / 10 < n := by omega
      have later : decimalDigits (n / 10) = (Nat.digits 10 (n / 10)).reverse :=
        if_neg (by omega)
      have upper : Nat.digits 10 n = n % 10 :: Nat.digits 10 (n / 10) :=
        Nat.digits_def' (by decide) (by omega)
      rw [if_neg (by omega), ih _ smaller, later, upper]
      simp [digitChars]

theorem number_decimalDigits (n : ℕ) : Text.number 10 (decimalDigits n) = n := by
  unfold decimalDigits
  split
  · next zero => rw [zero]; rfl
  · rw [Text.number_reverse, Nat.ofDigits_digits]

theorem decimalDigits_ne_nil (n : ℕ) : decimalDigits n ≠ [] := by
  unfold decimalDigits
  split
  · exact List.cons_ne_nil _ _
  · next positive => simpa [Nat.digits_eq_nil_iff_eq_zero] using positive

theorem lt_of_mem_decimalDigits {n d : ℕ} (h : d ∈ decimalDigits n) : d < 10 := by
  unfold decimalDigits at h
  split at h
  · simp at h
    omega
  · exact Nat.digits_lt_base (by decide) (List.mem_reverse.1 h)

/-- No zero leads, but that of zero. -/
theorem eq_of_head?_decimalDigits {n : ℕ} (h : (decimalDigits n).head? = some 0) :
    decimalDigits n = [0] := by
  unfold decimalDigits at h ⊢
  split
  · rfl
  · next positive =>
    have some_ : Nat.digits 10 n ≠ [] := Nat.digits_ne_nil_iff_ne_zero.2 positive
    rw [if_neg positive, List.head?_reverse, List.getLast?_eq_some_getLast some_] at h
    exact absurd (Option.some.inj h) (Nat.getLast_digit_ne_zero 10 positive)

/-- The digits without the zeros at the end. -/
def significantDigits (n : ℕ) : List ℕ := ((Nat.digits 10 n).dropWhile (· == 0)).reverse

theorem lt_of_mem_significantDigits {n d : ℕ} (h : d ∈ significantDigits n) : d < 10 :=
  Nat.digits_lt_base (by decide) ((List.dropWhile_sublist _).mem (List.mem_reverse.1 h))

/-- The highest digit is not zero, so that it stays. -/
theorem digits_cut {n : ℕ} (positive : 0 < n) :
    ∃ lower highest, highest ≠ 0 ∧ Nat.digits 10 n = lower ++ [highest] ∧
      significantDigits n = highest :: (lower.dropWhile (· == 0)).reverse := by
  have some_ : Nat.digits 10 n ≠ [] := Nat.digits_ne_nil_iff_ne_zero.2 positive.ne'
  have cut := List.dropLast_append_getLast some_
  have nonzero := Nat.getLast_digit_ne_zero 10 positive.ne'
  refine ⟨_, _, nonzero, cut.symm, ?_⟩
  rw [significantDigits]
  nth_rewrite 1 [← cut]
  rw [List.dropWhile_append]
  split
  · next nothing => simp [List.isEmpty_iff.1 nothing, nonzero]
  · simp

theorem trimZeros_toDigits {n : ℕ} (positive : 0 < n) :
    trimZeros (Nat.toDigits 10 n) = digitChars (significantDigits n) := by
  obtain ⟨lower, highest, -, digits, significant⟩ := digits_cut positive
  have isZero : ∀ d < 10, (Nat.digitChar d == '0') = (d == 0) := by decide
  have zeros : ∀ ds : List ℕ, (∀ d ∈ ds, d < 10) → (ds.map Nat.digitChar).dropWhile (· == '0') =
      (ds.dropWhile (· == 0)).map Nat.digitChar := by
    intro ds small
    induction ds with
    | nil => rfl
    | cons d ds ih =>
      rw [List.forall_mem_cons] at small
      simp only [List.map_cons, List.dropWhile_cons, isZero d small.1, ih small.2]
      split <;> simp
  have small : ∀ d ∈ lower, d < 10 := fun d mem =>
    Nat.digits_lt_base (m := n) (by decide) (digits ▸ List.mem_append_left _ mem)
  rw [toDigits_eq, decimalDigits, if_neg positive.ne', digits, significant]
  simp [digitChars, trimZeros, zeros lower small]

theorem significantDigits_cons {n : ℕ} (positive : 0 < n) :
    ∃ d ds, significantDigits n = d :: ds ∧ d ≠ 0 := by
  obtain ⟨lower, highest, nonzero, -, significant⟩ := digits_cut positive
  exact ⟨highest, _, significant, nonzero⟩

/-- The zeros that were left out are a power of ten. -/
theorem significantDigits_fits {precision : ℕ} {d : Decimal} (fits : d.Fits precision) :
    (significantDigits d.digits).length ≤ precision ∧
      d.digits = Text.number 10 (significantDigits d.digits) *
        10 ^ (precision - (significantDigits d.digits).length) := by
  set kept := (Nat.digits 10 d.digits).dropWhile (· == 0) with kept_eq
  have significant : significantDigits d.digits = kept.reverse := rfl
  set k := ((Nat.digits 10 d.digits).takeWhile (· == 0)).length
  have zeros : Nat.digits 10 d.digits = List.replicate k 0 ++ kept := by
    have all : (Nat.digits 10 d.digits).takeWhile (· == 0) = List.replicate k 0 :=
      List.eq_replicate_iff.2 ⟨rfl, fun digit mem => by simpa using List.mem_takeWhile_imp mem⟩
    rw [← all]
    exact List.takeWhile_append_dropWhile.symm
  have length : (Nat.digits 10 d.digits).length = precision := by
    have le := (Nat.digits_length_le_iff (by decide : 1 < 10) d.digits).2 fits.lt
    have gt := (Nat.lt_digits_length_iff (by decide : 1 < 10) d.digits).2 fits.le
    omega
  have parts : precision - kept.length = k := by
    rw [← length, zeros]
    simp
  rw [significant, List.length_reverse, parts, ← Text.number_append_zeros]
  refine ⟨by rw [← length, zeros]; simp, ?_⟩
  calc d.digits = Text.number 10 (Nat.digits 10 d.digits).reverse := by
        rw [Text.number_reverse, Nat.ofDigits_digits]
    _ = Text.number 10 (kept.reverse ++ List.replicate k 0) := by
        rw [zeros, List.reverse_append, List.reverse_replicate]

/-! ## Layouts -/

/-- At least two digits. -/
def exponentNumber (e : ℕ) : List ℕ :=
  List.replicate (2 - (decimalDigits e).length) 0 ++ decimalDigits e

theorem number_exponentNumber (e : ℕ) : Text.number 10 (exponentNumber e) = e := by
  rw [exponentNumber, Text.number_zeros_append, number_decimalDigits]

theorem digitChars_exponentNumber (e : ℕ) : digitChars (exponentNumber e) = exponentDigits e := by
  simp [exponentNumber, exponentDigits, toDigits_eq, zeros]

/-- The numeral that a decimal is laid out as. -/
def numeral (negative : Bool) (precision : ℕ) (d : Decimal) : Json.Number :=
  let ds := significantDigits d.digits
  let whole := d.exponent.toNat + 1
  if d.exponent ≤ -5 ∨ precision ≤ d.exponent then
    ⟨negative, ds.take 1, if ds.length ≤ 1 then none else some (ds.drop 1),
      some (d.exponent < 0, exponentNumber d.exponent.natAbs)⟩
  else if d.exponent < 0 then
    ⟨negative, [0], some (List.replicate (d.exponent.natAbs - 1) 0 ++ ds), none⟩
  else if ds.length ≤ whole then
    ⟨negative, ds ++ List.replicate (whole - ds.length) 0, none, none⟩
  else ⟨negative, ds.take whole, some (ds.drop whole), none⟩

theorem negative_numeral (negative : Bool) (precision : ℕ) (d : Decimal) :
    (numeral negative precision d).negative = negative := by
  unfold numeral
  dsimp only
  split
  · rfl
  split
  · rfl
  split <;> rfl

theorem text_numeral (negative : Bool) (precision : ℕ) {d : Decimal} (positive : 0 < d.digits) :
    (numeral negative precision d).text =
      (if negative then ['-'] else []) ++ layout precision d := by
  unfold numeral layout
  rw [trimZeros_toDigits positive]
  dsimp only
  split
  · by_cases one : (significantDigits d.digits).length ≤ 1 <;>
      simp [Json.Number.text, Json.Number.fractionText, Json.Number.exponentText, scientific, one,
        digitChars_exponentNumber]
  unfold positional
  split
  · simp [Json.Number.text, Json.Number.fractionText, Json.Number.exponentText, zeros]
    rfl
  rw [Json.length_digitChars]
  dsimp only
  split <;> simp [Json.Number.text, Json.Number.fractionText, Json.Number.exponentText, zeros]

/-- Zeros that are put before digits, or after them, are digits. -/
theorem lt_of_mem_zeros {k d : ℕ} (h : d ∈ List.replicate k 0) : d < 10 := by
  rw [List.eq_of_mem_replicate h]
  decide

theorem lt_of_mem_exponentNumber {e d : ℕ} (h : d ∈ exponentNumber e) : d < 10 :=
  (List.mem_append.1 h).elim lt_of_mem_zeros lt_of_mem_decimalDigits

theorem exponentNumber_ne_nil (e : ℕ) : exponentNumber e ≠ [] :=
  List.append_ne_nil_of_right_ne_nil _ (decimalDigits_ne_nil e)

theorem wellFormed_numeral (negative : Bool) (precision : ℕ) {d : Decimal}
    (positive : 0 < d.digits) : (numeral negative precision d).WellFormed := by
  obtain ⟨first, more, significant, nonzero⟩ := significantDigits_cons positive
  have small : ∀ digit ∈ first :: more, digit < 10 :=
    fun _ mem => lt_of_mem_significantDigits (significant ▸ mem)
  unfold numeral
  rw [significant]
  dsimp only
  split
  · refine ⟨⟨by simp, fun digit mem => small digit (List.mem_of_mem_take mem)⟩, ?_, ?_, ?_⟩
    · simp [nonzero]
    · intro ds mem
      split at mem
      · cases mem
      · next long =>
        cases mem
        refine ⟨?_, fun digit mem => small digit (List.mem_of_mem_drop mem)⟩
        intro nothing
        simp at nothing long
        exact long nothing
    · intro e mem
      cases mem
      exact ⟨exponentNumber_ne_nil _, fun _ => lt_of_mem_exponentNumber⟩
  split
  · refine ⟨⟨by simp, by simp⟩, fun _ => rfl, ?_, by simp⟩
    intro ds mem
    cases mem
    exact ⟨by simp, fun digit mem => (List.mem_append.1 mem).elim lt_of_mem_zeros (small digit)⟩
  split
  · refine ⟨⟨by simp, ?_⟩, by simp [nonzero], by simp, by simp⟩
    exact fun digit mem => (List.mem_append.1 mem).elim (small digit) lt_of_mem_zeros
  · next long =>
    refine ⟨⟨by simp, fun digit mem => small digit (List.mem_of_mem_take mem)⟩, ?_, ?_, by simp⟩
    · simp [nonzero]
    · intro ds mem
      cases mem
      refine ⟨?_, fun digit mem => small digit (List.mem_of_mem_drop mem)⟩
      simp at long ⊢
      omega

/-- The significant digits come back, with zeros only where the layout has added some. -/
theorem coefficient_numeral (negative : Bool) (precision : ℕ) {d : Decimal}
    (positive : 0 < d.digits) :
    ∃ k : ℕ, (numeral negative precision d).coefficient =
        Text.number 10 (significantDigits d.digits) * 10 ^ k ∧
      (numeral negative precision d).lastPlace + k =
        d.exponent + 1 - (significantDigits d.digits).length := by
  obtain ⟨first, more, significant, -⟩ := significantDigits_cons positive
  have length : 0 < (significantDigits d.digits).length := by simp [significant]
  unfold numeral
  generalize significantDigits d.digits = ds at length
  dsimp only
  split
  · refine ⟨0, ?_, ?_⟩
    · by_cases one : ds.length ≤ 1
      · simp [Json.Number.coefficient, one, List.take_of_length_le one]
      · simp only [Json.Number.coefficient, one, if_false, Option.getD_some, List.take_append_drop,
          pow_zero, mul_one]
    · have tens : (if decide (d.exponent < 0) = true
          then -(Text.number 10 (exponentNumber d.exponent.natAbs) : ℤ)
          else Text.number 10 (exponentNumber d.exponent.natAbs)) = d.exponent := by
        rw [number_exponentNumber]
        split
        · next below => simp at below; omega
        · next above => simp at above; omega
      by_cases one : ds.length ≤ 1
      · simp only [Json.Number.lastPlace, one, if_true, Option.getD_none, List.length_nil, tens]
        omega
      · simp only [Json.Number.lastPlace, one, if_false, Option.getD_some, List.length_drop, tens]
        omega
  split
  · refine ⟨0, ?_, ?_⟩
    · have zero : Text.number 10 ([0] ++ (List.replicate (d.exponent.natAbs - 1) 0 ++ ds)) =
          Text.number 10 ds := by
        rw [← List.append_assoc]
        exact Text.number_zeros_append 10 (d.exponent.natAbs - 1 + 1) ds
      simpa [Json.Number.coefficient] using zero
    · simp [Json.Number.lastPlace]
      omega
  split
  · refine ⟨d.exponent.toNat + 1 - ds.length, ?_, ?_⟩
    · simp [Json.Number.coefficient, Text.number_append_zeros]
    · simp [Json.Number.lastPlace]
      omega
  · refine ⟨0, ?_, ?_⟩
    · simp [Json.Number.coefficient]
    · simp [Json.Number.lastPlace]
      omega

theorem toRat_numeral (negative : Bool) {precision : ℕ} {d : Decimal} (fits : d.Fits precision) :
    (numeral negative precision d).exact.toRat = d.toRat precision := by
  obtain ⟨k, coefficient, place⟩ := coefficient_numeral negative precision fits.digits_pos
  obtain ⟨length, digits⟩ := significantDigits_fits fits
  set n := Text.number 10 (significantDigits d.digits)
  set t := (significantDigits d.digits).length
  have digits' : (d.digits : ℚ) = n * 10 ^ (precision - t) := by exact_mod_cast digits
  have ten : (10 : ℚ) ≠ 0 := by norm_num
  rw [Json.Number.toRat_exact, Decimal.toRat, coefficient, digits']
  push_cast
  rw [mul_assoc, mul_assoc, ← zpow_natCast, ← zpow_natCast, ← zpow_add₀ ten, ← zpow_add₀ ten]
  congr 2
  omega

/-! ## Reading back -/

/-- A decimal that was laid out is read as a numeral that stands for it. -/
theorem read_layout (negative : Bool) {precision : ℕ} {d : Decimal} (fits : d.Fits precision) :
    ∃ n, Json.Reader.number ((if negative then ['-'] else []) ++ layout precision d) =
        some (n, []) ∧
      n.negative = negative ∧ n.exact.toRat = d.toRat precision := by
  have positive := fits.digits_pos
  have read := Json.Reader.number_text (wellFormed_numeral negative precision positive)
  rw [text_numeral negative precision positive] at read
  exact ⟨_, read, negative_numeral negative precision d, toRat_numeral negative fits⟩

theorem read_zero (negative : Bool) :
    ∃ n, Json.Reader.number ((if negative then ['-'] else []) ++ ['0']) = some (n, []) ∧
      n.negative = negative ∧ n.exact.num = 0 := by
  have wellFormed : (Json.Number.mk negative [0] none none).WellFormed :=
    ⟨⟨by simp, by simp⟩, fun _ => rfl, by simp, by simp⟩
  have text : (Json.Number.mk negative [0] none none).text =
      (if negative then ['-'] else []) ++ ['0'] := by
    cases negative <;> rfl
  have num : (Json.Number.mk negative [0] none none).exact.num = 0 := by
    cases negative <;> rfl
  exact ⟨_, text ▸ Json.Reader.number_text wellFormed, rfl, num⟩

end General

end Emitter
