import Emitter.Proofs.Text.Utf8
import Emitter.Proofs.Text.Units
import Mathlib.Data.List.Basic

/-! Nothing is lost without a mark. Where the text that bytes are read as shows no replacement, the
bytes are those that the text is written as: whatever is no part of a character, at the end of the
bytes too, has left a replacement. -/

namespace Emitter

attribute [local instance (high)] instPowNat

/-- Bytes are the ones of the number that they make. -/
theorem Bytes.ofNat_toNat (bytes : Bytes) : ofNat bytes.length (toNat bytes) = bytes := by
  induction bytes with
  | nil => rfl
  | cons b rest ih =>
    have small : b.toNat < 256 := b.toNat_lt
    have byte : UInt8.ofNat (b.toNat + 256 * toNat rest) = b := by
      rw [← UInt8.toNat_inj, UInt8.toNat_ofNat']
      omega
    have more : (b.toNat + 256 * toNat rest) / 256 = toNat rest := by omega
    rw [toNat, List.length_cons, ofNat, byte, more, ih]

theorem Bytes.toNat_lt (bytes : Bytes) : toNat bytes < 256 ^ bytes.length := by
  induction bytes with
  | nil => exact Nat.one_pos
  | cons b rest ih =>
    have small : b.toNat < 256 := b.toNat_lt
    have power : 256 ^ (b :: rest).length = 256 * 256 ^ rest.length := Nat.pow_succ'
    rw [toNat, power]
    omega

namespace Text

theorem toNat_ofNat {n : Nat} (valid : n.isValidChar) : (Char.ofNat n).toNat = n := by
  rw [Char.ofNat, dif_pos valid]
  rfl

/-! ## UTF-8 -/

namespace Utf8

/-- The number of a character after further bytes. -/
def gathered (bits : Nat) (bytes : Bytes) : Nat :=
  bytes.foldl (fun bits b => bits * 64 + b.toNat % 64) bits

/-- What was seen of a character is the beginning of its bytes, whatever further bytes complete
it. -/
def Begun (seen : Bytes) : State → Prop
  | .start => seen = []
  | .inside bits owed low high => 0 < owed ∧
      ∀ b rest, low ≤ b → b ≤ high → rest.length + 1 = owed → (∀ c ∈ rest, 0x80 ≤ c ∧ c ≤ 0xBF) →
        String.utf8EncodeChar (Char.ofNat (gathered bits (b :: rest))) = seen ++ b :: rest

/-! ### Lead bytes -/

/-- A further byte is six bits, in its range. -/
theorem six_bits {low high b : UInt8} (least : 0x80 ≤ low) (greatest : high ≤ 0xBF)
    (from_ : low ≤ b) (to_ : b ≤ high) : ∃ k, b = UInt8.ofNat (k + 0x80) ∧ b.toNat % 64 = k ∧
      k < 64 ∧ low.toNat ≤ k + 0x80 ∧ k + 0x80 ≤ high.toNat := by
  rw [UInt8.le_iff_toNat_le] at least greatest from_ to_
  simp at least greatest
  refine ⟨b.toNat - 0x80, ?_, by omega, by omega, by omega, by omega⟩
  rw [Nat.sub_add_cancel (by omega), UInt8.ofNat_toNat]

theorem begun_two {n : Nat} (least : 2 ≤ n) (h : n < 32) :
    Begun [UInt8.ofNat (n + 0xC0)] (.inside n 1 0x80 0xBF) := by
  refine ⟨Nat.one_pos, fun b rest from_ to_ length _ => ?_⟩
  obtain rfl : rest = [] := List.length_eq_zero_iff.1 (by omega)
  obtain ⟨k, rfl, bits, -⟩ := six_bits (by decide) (by decide) from_ to_
  have number : (Char.ofNat (n * 64 + k)).val.toNat = n * 64 + k := toNat_ofNat (by omega)
  have first : (n * 64 + k) / 64 % 32 = n := by omega
  have second : (n * 64 + k) % 64 = k := by omega
  rw [gathered, List.foldl_cons, List.foldl_nil, bits, String.utf8EncodeChar, number,
    if_neg (by omega), if_pos (by omega), first, second]
  rfl

theorem second_bounds : ∀ n < 16, (0x80 ≤ (second n).1 ∧ (second n).2 ≤ 0xBF) ∧
    (n = 0 → (second n).1.toNat = 0xA0) ∧ (n = 13 → (second n).2.toNat = 0x9F) := by
  decide

theorem begun_three {n : Nat} (h : n < 16) :
    Begun [UInt8.ofNat (n + 0xE0)] (.inside n 2 (second n).1 (second n).2) := by
  refine ⟨Nat.two_pos, fun b rest from_ to_ length continuing => ?_⟩
  obtain ⟨c, rfl⟩ : ∃ c, rest = [c] := List.length_eq_one_iff.1 (by omega)
  obtain ⟨⟨least, greatest⟩, shortest, scalar⟩ := second_bounds n h
  obtain ⟨from_', to_'⟩ := continuing c List.mem_cons_self
  obtain ⟨k, rfl, bits, small, above, below⟩ := six_bits least greatest from_ to_
  obtain ⟨m, rfl, bits', small', -⟩ := six_bits (by decide) (by decide) from_' to_'
  have number : (Char.ofNat ((n * 64 + k) * 64 + m)).val.toNat = (n * 64 + k) * 64 + m :=
    toNat_ofNat (by omega)
  have one : ((n * 64 + k) * 64 + m) / 4096 % 16 = n := by omega
  have two : ((n * 64 + k) * 64 + m) / 64 % 64 = k := by omega
  have three : ((n * 64 + k) * 64 + m) % 64 = m := by omega
  rw [gathered, List.foldl_cons, List.foldl_cons, List.foldl_nil, bits, bits',
    String.utf8EncodeChar, number, if_neg (by omega), if_neg (by omega), if_pos (by omega), one,
    two, three]
  rfl

theorem secondOfFour_bounds : ∀ n < 5,
    (0x80 ≤ (secondOfFour n).1 ∧ (secondOfFour n).2 ≤ 0xBF) ∧
      (n = 0 → (secondOfFour n).1.toNat = 0x90) ∧ (n = 4 → (secondOfFour n).2.toNat = 0x8F) := by
  decide

theorem begun_four {n : Nat} (h : n < 5) :
    Begun [UInt8.ofNat (n + 0xF0)] (.inside n 3 (secondOfFour n).1 (secondOfFour n).2) := by
  refine ⟨by decide, fun b rest from_ to_ length continuing => ?_⟩
  obtain ⟨c, d, rfl⟩ : ∃ c d, rest = [c, d] := List.length_eq_two.1 (by omega)
  obtain ⟨⟨least, greatest⟩, shortest, last⟩ := secondOfFour_bounds n h
  obtain ⟨from_', to_'⟩ := continuing c (by simp)
  obtain ⟨from_'', to_''⟩ := continuing d (by simp)
  obtain ⟨k, rfl, bits, small, above, below⟩ := six_bits least greatest from_ to_
  obtain ⟨m, rfl, bits', small', -⟩ := six_bits (by decide) (by decide) from_' to_'
  obtain ⟨l, rfl, bits'', small'', -⟩ := six_bits (by decide) (by decide) from_'' to_''
  have number : (Char.ofNat (((n * 64 + k) * 64 + m) * 64 + l)).val.toNat =
      ((n * 64 + k) * 64 + m) * 64 + l := toNat_ofNat (by omega)
  have one : (((n * 64 + k) * 64 + m) * 64 + l) / 262144 % 8 = n := by omega
  have two : (((n * 64 + k) * 64 + m) * 64 + l) / 4096 % 64 = k := by omega
  have three : (((n * 64 + k) * 64 + m) * 64 + l) / 64 % 64 = m := by omega
  have four : (((n * 64 + k) * 64 + m) * 64 + l) % 64 = l := by omega
  rw [gathered, List.foldl_cons, List.foldl_cons, List.foldl_cons, List.foldl_nil, bits, bits',
    bits'', String.utf8EncodeChar, number, if_neg (by omega), if_neg (by omega),
    if_neg (by omega), one, two, three, four]
  rfl

/-- A byte that begins no character. -/
theorem first_none {b : UInt8} (whole : ¬ b.toNat < 0x80)
    (lead : ¬ (0xC2 ≤ b.toNat ∧ b.toNat < 0xF5)) : first b = ([replacement], .start) := by
  simp only [first, UInt8.lt_iff_toNat_lt, UInt8.le_iff_toNat_le, ← UInt8.toNat_inj]
  simp only [UInt8.reduceToNat]
  rw [if_neg (by omega), if_neg (by omega), if_neg (by omega), if_neg (by omega), if_neg (by omega),
    if_neg (by omega), if_neg (by omega), if_neg (by omega)]

theorem begun_first {b : UInt8} (h : replacement ∉ (first b).1) :
    ∃ seen, Begun seen (first b).2 ∧ encode (first b).1 ++ seen = [b] := by
  have byte : UInt8.ofNat b.toNat = b := UInt8.ofNat_toNat
  have lead {n k : Nat} (is : b.toNat = n + k) : b = UInt8.ofNat (n + k) := is ▸ byte.symm
  by_cases one : b.toNat < 0x80
  · have number : (Char.ofNat b.toNat).val.toNat = b.toNat := toNat_ofNat (by omega)
    rw [← byte, first_one b.toNat one, byte]
    refine ⟨[], rfl, ?_⟩
    rw [encode, List.flatMap_singleton, String.utf8EncodeChar, number, if_pos (by omega), byte]
    rfl
  by_cases two : 0xC2 ≤ b.toNat ∧ b.toNat < 0xE0
  · obtain ⟨n, is⟩ := Nat.exists_eq_add_of_le' (show 0xC0 ≤ b.toNat by omega)
    rw [lead is, first_two n (by omega) (by omega)]
    exact ⟨_, begun_two (by omega) (by omega), rfl⟩
  by_cases three : 0xE0 ≤ b.toNat ∧ b.toNat < 0xF0
  · obtain ⟨n, is⟩ := Nat.exists_eq_add_of_le' three.1
    rw [lead is, first_three n (by omega)]
    exact ⟨_, begun_three (by omega), rfl⟩
  by_cases four : 0xF0 ≤ b.toNat ∧ b.toNat < 0xF5
  · obtain ⟨n, is⟩ := Nat.exists_eq_add_of_le' four.1
    rw [lead is, first_four n (by omega)]
    exact ⟨_, begun_four (by omega), rfl⟩
  · rw [first_none one (by omega)] at h
    exact absurd (List.mem_singleton_self _) h

/-! ### All bytes -/

theorem begun_step {state : State} {seen : Bytes} (begun : Begun seen state) {b : UInt8}
    (h : replacement ∉ (step state b).1) :
    ∃ more, Begun more (step state b).2 ∧ encode (step state b).1 ++ more = seen ++ [b] := by
  cases state with
  | start =>
    obtain rfl : seen = [] := begun
    exact begun_first h
  | inside bits owed low high =>
    obtain ⟨owes, completes⟩ := begun
    by_cases range : low ≤ b ∧ b ≤ high
    · rw [step, if_pos range]
      dsimp only
      split
      · next last =>
        have whole := completes b [] range.1 range.2 (by rw [List.length_nil]; omega) (by simp)
        refine ⟨[], rfl, ?_⟩
        rw [List.append_nil, encode, List.flatMap_singleton]
        exact whole
      · next more =>
        refine ⟨seen ++ [b], ⟨by omega, fun c rest from_ to_ length continuing => ?_⟩, rfl⟩
        have whole := completes b (c :: rest) range.1 range.2 (by rw [List.length_cons]; omega)
          (List.forall_mem_cons.2 ⟨⟨from_, to_⟩, continuing⟩)
        rw [List.append_assoc]
        exact whole
    · rw [step, if_neg range] at h
      exact absurd List.mem_cons_self h

theorem encode_append (a b : List Char) : encode (a ++ b) = encode a ++ encode b :=
  List.flatMap_append

theorem encode_decodeFrom {state : State} {seen : Bytes} (begun : Begun seen state) {bytes : Bytes}
    (h : replacement ∉ decodeFrom state bytes) :
    encode (decodeFrom state bytes) = seen ++ bytes := by
  induction bytes generalizing state seen with
  | nil =>
    cases state with
    | start =>
      obtain rfl : seen = [] := begun
      rfl
    | inside => exact absurd (List.mem_singleton_self _) h
  | cons b rest ih =>
    rw [decodeFrom_cons, List.mem_append, not_or] at h
    obtain ⟨more, begun, seen_eq⟩ := begun_step begun h.1
    rw [decodeFrom_cons, encode_append, ih begun h.2, ← List.append_assoc, seen_eq,
      List.append_assoc, List.singleton_append]

theorem encode_decode {bytes : Bytes} (h : replacement ∉ decode bytes) :
    encode (decode bytes) = bytes := by
  have begun : Begun [] .start := rfl
  exact encode_decodeFrom begun h

end Utf8

/-! ## UTF-16 -/

namespace Utf16

theorem units_single {u : Nat} (word : u < 0x10000) (h : single u ≠ replacement) :
    units (single u) = [u] := by
  unfold single at h ⊢
  split at h
  · exact absurd rfl h
  · next scalar =>
    rw [Bool.or_eq_true, isHigh_iff, isLow_iff] at scalar
    have number : (Char.ofNat u).toNat = u := toNat_ofNat (by omega)
    rw [if_neg (by rwa [Bool.or_eq_true, isHigh_iff, isLow_iff]), units, number, if_pos word]

theorem units_pair {u v : Nat} (high : isHigh u = true) (low : isLow v = true) :
    units (pair u v) = [u, v] := by
  rw [isHigh_iff] at high
  rw [isLow_iff] at low
  have number : (pair u v).toNat = 0x10000 + (u - 0xD800) * 0x400 + (v - 0xDC00) :=
    toNat_ofNat (by omega)
  have first : 0xD800 + (0x10000 + (u - 0xD800) * 0x400 + (v - 0xDC00) - 0x10000) / 0x400 = u := by
    omega
  have second : 0xDC00 + (0x10000 + (u - 0xD800) * 0x400 + (v - 0xDC00) - 0x10000) % 0x400 = v := by
    omega
  rw [units, number, if_neg (by omega), first, second]

theorem flatMap_units_ofUnits {us : List Nat} (words : ∀ u ∈ us, u < 0x10000)
    (h : replacement ∉ ofUnits us) : (ofUnits us).flatMap units = us := by
  induction us using ofUnits.induct with
  | case1 => rfl
  | case2 u =>
    have shown : single u ≠ replacement := fun marked => h (marked ▸ List.mem_singleton_self _)
    rw [ofUnits, List.flatMap_singleton, units_single (words u List.mem_cons_self) shown]
  | case3 u v rest both ih =>
    rw [List.forall_mem_cons, List.forall_mem_cons] at words
    rw [ofUnits, if_pos both, List.mem_cons, not_or] at h
    rw [Bool.and_eq_true] at both
    rw [ofUnits_pair both.1 both.2, List.flatMap_cons, units_pair both.1 both.2, ih words.2.2 h.2]
    rfl
  | case4 u v rest both ih =>
    rw [List.forall_mem_cons] at words
    rw [ofUnits, if_neg both, List.mem_cons, not_or] at h
    rw [ofUnits, if_neg both, List.flatMap_cons, units_single words.1 (Ne.symm h.1),
      ih words.2 h.2]
    rfl

theorem lt_of_mem_unitsOf {bytes : Bytes} {u : Nat} (h : u ∈ unitsOf bytes) : u < 0x10000 := by
  induction bytes using unitsOf.induct with
  | case1 a b rest ih =>
    rw [unitsOf, List.mem_cons] at h
    rcases h with rfl | later
    · have := Bytes.toNat_lt [a, b]
      simpa using this
    · exact ih later
  | case2 bytes short => simp [unitsOf] at h

theorem flatMap_unitsOf {bytes : Bytes} (even : bytes.length % 2 = 0) :
    (unitsOf bytes).flatMap (Bytes.ofNat 2) = bytes := by
  induction bytes using unitsOf.induct with
  | case1 a b rest ih =>
    rw [List.length_cons, List.length_cons] at even
    rw [unitsOf, List.flatMap_cons, ih (by omega)]
    exact congrArg (· ++ rest) (Bytes.ofNat_toNat [a, b])
  | case2 bytes short =>
    match bytes with
    | [] => rfl
    | [b] => simp at even
    | a :: b :: rest => exact absurd rfl (short a b rest)

theorem encode_decode {bytes : Bytes} (h : replacement ∉ decode bytes) :
    encode (decode bytes) = bytes := by
  rw [decode, List.mem_append, not_or] at h
  obtain ⟨shown, ending⟩ := h
  have even : bytes.length % 2 = 0 := by
    by_contra odd
    rw [if_neg odd] at ending
    exact ending (List.mem_singleton_self _)
  rw [decode, if_pos even, List.append_nil, encode,
    flatMap_units_ofUnits (fun _ => lt_of_mem_unitsOf) shown, flatMap_unitsOf even]

end Utf16

/-! ## UTF-32 -/

namespace Utf32

theorem toNat_char {n : Nat} (h : char n ≠ replacement) : (char n).toNat = n := by
  unfold char at h ⊢
  split at h
  · next valid => rw [if_pos valid, toNat_ofNat valid]
  · exact absurd rfl h

theorem encode_chars {us : List Nat} (h : replacement ∉ us.map char) :
    encode (us.map char) = us.flatMap (Bytes.ofNat 4) := by
  rw [encode, List.flatMap_map]
  refine List.flatMap_congr fun u mem => ?_
  rw [toNat_char fun marked => h (List.mem_map.2 ⟨u, mem, marked⟩)]

theorem flatMap_unitsOf {bytes : Bytes} (whole : bytes.length % 4 = 0) :
    (unitsOf bytes).flatMap (Bytes.ofNat 4) = bytes := by
  induction bytes using unitsOf.induct with
  | case1 a b c d rest ih =>
    simp only [List.length_cons] at whole
    rw [unitsOf, List.flatMap_cons, ih (by omega)]
    exact congrArg (· ++ rest) (Bytes.ofNat_toNat [a, b, c, d])
  | case2 bytes short =>
    match bytes with
    | [] => rfl
    | [_] | [_, _] | [_, _, _] => simp at whole
    | a :: b :: c :: d :: rest => exact absurd rfl (short a b c d rest)

theorem encode_decode {bytes : Bytes} (h : replacement ∉ decode bytes) :
    encode (decode bytes) = bytes := by
  rw [decode, List.mem_append, not_or] at h
  obtain ⟨shown, ending⟩ := h
  have whole : bytes.length % 4 = 0 := by
    by_contra partial_
    rw [if_neg partial_] at ending
    exact ending (List.mem_singleton_self _)
  rw [decode, if_pos whole, List.append_nil, encode_chars shown, flatMap_unitsOf whole]

end Utf32

/-! ## ASCII -/

theorem Ascii.encode_decode {bytes : Bytes} (h : '?' ∉ decode bytes) :
    encode (decode bytes) = bytes := by
  induction bytes with
  | nil => rfl
  | cons b rest ih =>
    rw [decode, List.map_cons, List.mem_cons, not_or] at h
    have plain : b < 0x80 := by
      by_contra beyond
      rw [if_neg beyond] at h
      exact h.1 rfl
    have small : b.toNat < 0x80 := UInt8.lt_iff_toNat_lt.1 plain
    have number : (Char.ofNat b.toNat).toNat = b.toNat := toNat_ofNat (by omega)
    calc encode (decode (b :: rest))
        = UInt8.ofNat (if b < 0x80 then Char.ofNat b.toNat else '?').toNat ::
            encode (decode rest) := rfl
      _ = b :: rest := by rw [if_pos plain, number, UInt8.ofNat_toNat, ih h.2]

end Text
end Emitter
