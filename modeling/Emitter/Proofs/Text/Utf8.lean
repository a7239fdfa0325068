import Emitter.Text.Utf8

/-! UTF-8 is read back as it was written. The lead byte of a character says how many bytes it has
and what range the next one has to be in; each further byte adds six bits. -/

namespace Emitter.Text.Utf8

/-! ## Lead bytes -/

theorem first_one : ∀ n < 128, first (UInt8.ofNat n) = ([Char.ofNat n], .start) := by
  decide

theorem first_two : ∀ n < 32, 2 ≤ n →
    first (UInt8.ofNat (n + 0xC0)) = ([], .inside n 1 0x80 0xBF) := by
  decide

/-- The range of the byte after a lead byte of three. -/
def second (n : Nat) : UInt8 × UInt8 :=
  if n = 0 then (0xA0, 0xBF) else if n = 13 then (0x80, 0x9F) else (0x80, 0xBF)

theorem first_three : ∀ n < 16,
    first (UInt8.ofNat (n + 0xE0)) = ([], .inside n 2 (second n).1 (second n).2) := by
  decide

/-- No shorter form, and no half of a surrogate pair. -/
theorem second_range {lead n : Nat} (h : n < 64) (shortest : lead = 0 → 32 ≤ n)
    (scalar : lead = 13 → n < 32) :
    (second lead).1.toNat ≤ n + 0x80 ∧ n + 0x80 ≤ (second lead).2.toNat := by
  unfold second
  split
  · simp
    omega
  split <;> simp <;> omega

/-- The range of the byte after a lead byte of four. -/
def secondOfFour (n : Nat) : UInt8 × UInt8 :=
  if n = 0 then (0x90, 0xBF) else if n = 4 then (0x80, 0x8F) else (0x80, 0xBF)

theorem first_four : ∀ n < 5,
    first (UInt8.ofNat (n + 0xF0)) = ([], .inside n 3 (secondOfFour n).1 (secondOfFour n).2) := by
  decide

/-- No shorter form, and nothing beyond the last character. -/
theorem secondOfFour_range {lead n : Nat} (h : n < 64) (shortest : lead = 0 → 16 ≤ n)
    (scalar : lead = 4 → n < 16) :
    (secondOfFour lead).1.toNat ≤ n + 0x80 ∧ n + 0x80 ≤ (secondOfFour lead).2.toNat := by
  unfold secondOfFour
  split
  · simp
    omega
  split <;> simp <;> omega

/-! ## Further bytes -/

theorem step_inside {bits owed n : Nat} {low high : UInt8} (h : n < 64)
    (from_ : low.toNat ≤ n + 0x80) (to_ : n + 0x80 ≤ high.toNat) :
    step (.inside bits owed low high) (UInt8.ofNat (n + 0x80)) =
      if owed ≤ 1 then ([Char.ofNat (bits * 64 + n)], .start)
      else ([], .inside (bits * 64 + n) (owed - 1) 0x80 0xBF) := by
  have value : (UInt8.ofNat (n + 0x80)).toNat = n + 0x80 := by
    simp
    omega
  have range : low ≤ UInt8.ofNat (n + 0x80) ∧ UInt8.ofNat (n + 0x80) ≤ high := by
    rw [UInt8.le_iff_toNat_le, UInt8.le_iff_toNat_le, value]
    exact ⟨from_, to_⟩
  have six : (n + 0x80) % 64 = n := by omega
  rw [step, if_pos range, value, six]

theorem decodeFrom_cons (state : State) (b : UInt8) (rest : Bytes) :
    decodeFrom state (b :: rest) = (step state b).1 ++ decodeFrom (step state b).2 rest := by
  cases state <;> rfl

section

variable {bits n : Nat} {low high : UInt8} (h : n < 64) (from_ : low.toNat ≤ n + 0x80)
  (to_ : n + 0x80 ≤ high.toNat) (rest : Bytes)
include h from_ to_

theorem decodeFrom_last : decodeFrom (.inside bits 1 low high) (UInt8.ofNat (n + 0x80) :: rest) =
    Char.ofNat (bits * 64 + n) :: decodeFrom .start rest := by
  rw [decodeFrom_cons, step_inside h from_ to_, if_pos (Nat.le_refl 1)]
  rfl

theorem decodeFrom_next (owed : Nat) :
    decodeFrom (.inside bits (owed + 2) low high) (UInt8.ofNat (n + 0x80) :: rest) =
      decodeFrom (.inside (bits * 64 + n) (owed + 1) 0x80 0xBF) rest := by
  rw [decodeFrom_cons, step_inside h from_ to_, if_neg (by omega)]
  rfl

end

theorem decodeFrom_lead {b : UInt8} {state : State} (h : first b = ([], state)) (rest : Bytes) :
    decodeFrom .start (b :: rest) = decodeFrom state rest := by
  rw [decodeFrom_cons, step, h]
  rfl

/-! ## Characters -/

/-- A character is read back from its bytes, whatever follows. -/
theorem decodeFrom_char (c : Char) (rest : Bytes) :
    decodeFrom .start (String.utf8EncodeChar c ++ rest) = c :: decodeFrom .start rest := by
  have valid : c.val.toNat < 0xD800 ∨ 0xDFFF < c.val.toNat ∧ c.val.toNat < 0x110000 := c.valid
  have back : Char.ofNat c.val.toNat = c := Char.ofNat_toNat c
  rw [String.utf8EncodeChar]
  generalize c.val.toNat = v at valid back
  split
  · next one =>
    have lead := first_one v (by omega)
    rw [List.singleton_append, decodeFrom_cons, step, lead, back]
    rfl
  split
  · next two =>
    have whole : v / 64 % 32 * 64 + v % 64 = v := by omega
    rw [List.cons_append, List.singleton_append,
      decodeFrom_lead (first_two _ (by omega) (by omega)),
      decodeFrom_last (by omega) (by simp) (by simp; omega), whole, back]
  split
  · next three =>
    have whole : (v / 4096 % 16 * 64 + v / 64 % 64) * 64 + v % 64 = v := by omega
    obtain ⟨low, high⟩ : (second (v / 4096 % 16)).1.toNat ≤ v / 64 % 64 + 0x80 ∧
        v / 64 % 64 + 0x80 ≤ (second (v / 4096 % 16)).2.toNat :=
      second_range (by omega) (by omega) (by omega)
    rw [List.cons_append, List.cons_append, List.singleton_append,
      decodeFrom_lead (first_three _ (by omega)), decodeFrom_next (by omega) low high,
      decodeFrom_last (by omega) (by simp) (by simp; omega), whole, back]
  · have whole :
        ((v / 262144 % 8 * 64 + v / 4096 % 64) * 64 + v / 64 % 64) * 64 + v % 64 = v := by omega
    obtain ⟨low, high⟩ : (secondOfFour (v / 262144 % 8)).1.toNat ≤ v / 4096 % 64 + 0x80 ∧
        v / 4096 % 64 + 0x80 ≤ (secondOfFour (v / 262144 % 8)).2.toNat :=
      secondOfFour_range (by omega) (by omega) (by omega)
    rw [List.cons_append, List.cons_append, List.cons_append, List.singleton_append,
      decodeFrom_lead (first_four _ (by omega)), decodeFrom_next (by omega) low high,
      decodeFrom_next (by omega) (by simp) (by simp; omega),
      decodeFrom_last (by omega) (by simp) (by simp; omega), whole, back]

theorem decode_encode (text : List Char) : decode (encode text) = text := by
  rw [decode]
  induction text with
  | nil => rfl
  | cons c rest ih =>
    rw [encode, List.flatMap_cons, decodeFrom_char]
    exact congrArg (c :: ·) ih

theorem decode?_encode (text : List Char) : decode? (encode text) = some text := by
  rw [decode?, decode_encode, if_pos rfl]

end Emitter.Text.Utf8
