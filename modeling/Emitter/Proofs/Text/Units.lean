import Emitter.Text.Ascii
import Emitter.Text.Utf16
import Emitter.Text.Utf32

/-! Texts of wider units, and of single bytes, are read back as they were written. A character of
UTF-16 is one unit that is no surrogate, or a high and a low one, so that the units say by themselves
where the characters end. -/

namespace Emitter

theorem Bytes.length_flatMap_ofNat {α : Type} (width : Nat) (number : α → Nat) (items : List α) :
    (items.flatMap fun item => ofNat width (number item)).length = items.length * width := by
  simp [List.length_flatMap, List.map_const']

namespace Text

theorem toNat_cases (c : Char) :
    c.toNat < 0xD800 ∨ 0xDFFF < c.toNat ∧ c.toNat < 0x110000 :=
  c.valid

namespace Utf16

theorem isHigh_iff (u : Nat) : isHigh u = true ↔ 0xD800 ≤ u ∧ u < 0xDC00 := by
  simp [isHigh]

theorem isLow_iff (u : Nat) : isLow u = true ↔ 0xDC00 ≤ u ∧ u < 0xE000 := by
  simp [isLow]

theorem ofUnits_single {u : Nat} (high : isHigh u = false) (rest : List Nat) :
    ofUnits (u :: rest) = single u :: ofUnits rest := by
  cases rest with
  | nil => rfl
  | cons v rest => simp [ofUnits, high]

theorem ofUnits_pair {u v : Nat} (high : isHigh u = true) (low : isLow v = true)
    (rest : List Nat) : ofUnits (u :: v :: rest) = pair u v :: ofUnits rest := by
  simp [ofUnits, high, low]

/-- A character is read back from its units, whatever follows. -/
theorem ofUnits_units (c : Char) (rest : List Nat) :
    ofUnits (units c ++ rest) = c :: ofUnits rest := by
  have valid := toNat_cases c
  have back : Char.ofNat c.toNat = c := Char.ofNat_toNat c
  unfold units
  split
  · next basic =>
    have high : isHigh c.toNat = false := by
      rw [← Bool.not_eq_true, isHigh_iff]
      omega
    have low : isLow c.toNat = false := by
      rw [← Bool.not_eq_true, isLow_iff]
      omega
    have whole : single c.toNat = c := by simp [single, high, low, back]
    rw [List.singleton_append, ofUnits_single high, whole]
  · next astral =>
    have high : isHigh (0xD800 + (c.toNat - 0x10000) / 0x400) = true := by
      rw [isHigh_iff]
      omega
    have low : isLow (0xDC00 + (c.toNat - 0x10000) % 0x400) = true := by
      rw [isLow_iff]
      omega
    have number : 0x10000 + (0xD800 + (c.toNat - 0x10000) / 0x400 - 0xD800) * 0x400 +
        (0xDC00 + (c.toNat - 0x10000) % 0x400 - 0xDC00) = c.toNat := by omega
    rw [List.cons_append, List.singleton_append, ofUnits_pair high low, pair, number, back]

theorem ofUnits_flatMap_units (text : List Char) : ofUnits (text.flatMap units) = text := by
  induction text with
  | nil => rfl
  | cons c rest ih => rw [List.flatMap_cons, ofUnits_units, ih]

theorem lt_of_mem_units {c : Char} {u : Nat} (h : u ∈ units c) : u < 0x10000 := by
  have valid := toNat_cases c
  unfold units at h
  split at h <;> simp at h <;> omega

/-- Units that fit in two bytes come back from their bytes. -/
theorem unitsOf_flatMap {us : List Nat} (h : ∀ u ∈ us, u < 0x10000) :
    unitsOf (us.flatMap (Bytes.ofNat 2)) = us := by
  induction us with
  | nil => rfl
  | cons u rest ih =>
    rw [List.forall_mem_cons] at h
    have value : Bytes.toNat (Bytes.ofNat 2 u) = u := by
      rw [Bytes.toNat_ofNat]
      exact Nat.mod_eq_of_lt h.1
    calc unitsOf ((u :: rest).flatMap (Bytes.ofNat 2))
        = Bytes.toNat (Bytes.ofNat 2 u) :: unitsOf (rest.flatMap (Bytes.ofNat 2)) := rfl
      _ = u :: rest := by rw [value, ih h.2]

theorem decode_encode (text : List Char) : decode (encode text) = text := by
  have fits : ∀ u ∈ text.flatMap units, u < 0x10000 := by
    intro u mem
    obtain ⟨c, -, mem⟩ := List.mem_flatMap.1 mem
    exact lt_of_mem_units mem
  have even : (encode text).length % 2 = 0 := by
    rw [encode, Bytes.length_flatMap_ofNat 2 (fun u => u)]
    exact Nat.mul_mod_left _ _
  rw [decode, if_pos even, encode, unitsOf_flatMap fits, ofUnits_flatMap_units, List.append_nil]

end Utf16

namespace Utf32

theorem char_toNat (c : Char) : char c.toNat = c := by
  have valid : c.toNat.isValidChar := c.valid
  rw [char, if_pos valid, Char.ofNat_toNat]

theorem unitsOf_encode (text : List Char) : unitsOf (encode text) = text.map Char.toNat := by
  induction text with
  | nil => rfl
  | cons c rest ih =>
    have valid := toNat_cases c
    have value : Bytes.toNat (Bytes.ofNat 4 c.toNat) = c.toNat := by
      rw [Bytes.toNat_ofNat]
      exact Nat.mod_eq_of_lt (by omega)
    calc unitsOf (encode (c :: rest))
        = Bytes.toNat (Bytes.ofNat 4 c.toNat) :: unitsOf (encode rest) := rfl
      _ = (c :: rest).map Char.toNat := by rw [value, ih, List.map_cons]

theorem decode_encode (text : List Char) : decode (encode text) = text := by
  have whole : (encode text).length % 4 = 0 := by
    rw [encode, Bytes.length_flatMap_ofNat]
    exact Nat.mul_mod_left _ _
  have chars : (text.map Char.toNat).map char = text := by
    rw [List.map_map]
    exact (List.map_congr_left fun c _ => char_toNat c).trans (List.map_id text)
  rw [decode, unitsOf_encode, chars, if_pos whole, List.append_nil]

end Utf32

namespace Ascii

theorem decode_encode {text : List Char} (h : ∀ c ∈ text, c.toNat < 128) :
    decode (encode text) = text := by
  induction text with
  | nil => rfl
  | cons c rest ih =>
    rw [List.forall_mem_cons] at h
    have value : (UInt8.ofNat c.toNat).toNat = c.toNat := by
      simp
      omega
    have plain : UInt8.ofNat c.toNat < 0x80 := by
      rw [UInt8.lt_iff_toNat_lt, value]
      exact h.1
    have here : (if UInt8.ofNat c.toNat < 0x80 then Char.ofNat (UInt8.ofNat c.toNat).toNat
        else '?') = c := by
      rw [if_pos plain, value, Char.ofNat_toNat]
    calc decode (encode (c :: rest))
        = (if UInt8.ofNat c.toNat < 0x80 then Char.ofNat (UInt8.ofNat c.toNat).toNat
            else '?') :: decode (encode rest) := rfl
      _ = c :: rest := by rw [here, ih h.2]

end Ascii

end Text

end Emitter
