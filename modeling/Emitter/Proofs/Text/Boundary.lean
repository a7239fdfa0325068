import Emitter.Text.Utf8
import Mathlib.Data.List.Basic

/-! Places in the bytes of a text at which a character begins. They are seen from one byte: only the
first byte of a character is none that goes on with one (`encodeChar_eq`). So the places that look
like a boundary are the sizes of the beginnings of the text (`isBoundary_encode`), and a search back
from any place ends at the last of them (`lastBoundary?_eq_some`). -/

namespace Emitter.Text.Utf8

/-- A byte inside a character. -/
def isContinuation (b : UInt8) : Bool := 0x80 ≤ b ∧ b ≤ 0xBF

/-- A character begins at this place, or the bytes end there. -/
def isBoundary (bytes : Bytes) (place : Nat) : Bool :=
  place = bytes.length || bytes[place]?.any (!isContinuation ·)

/-- Back from a place, byte by byte, to a boundary. Nothing is found if the search has to go on
before the first byte. -/
def lastBoundary? (bytes : Bytes) : Nat → Option Nat
  | 0 => if isBoundary bytes 0 then some 0 else none
  | place + 1 =>
    if isBoundary bytes (place + 1) then some (place + 1) else lastBoundary? bytes place

/-! ## The bytes of a character -/

theorem isContinuation_low : ∀ n < 64, isContinuation (UInt8.ofNat (n + 0x80)) = true := by decide

theorem isContinuation_one : ∀ n < 128, isContinuation (UInt8.ofNat n) = false := by decide

theorem isContinuation_lead : ∀ n < 64, isContinuation (UInt8.ofNat (n + 0xC0)) = false := by decide

/-- One byte that begins the character, and none after it that begins one. -/
theorem encodeChar_eq (c : Char) : ∃ lead more, String.utf8EncodeChar c = lead :: more ∧
    isContinuation lead = false ∧ ∀ b ∈ more, isContinuation b = true := by
  have valid : c.val.toNat < 0xD800 ∨ 0xDFFF < c.val.toNat ∧ c.val.toNat < 0x110000 := c.valid
  rw [String.utf8EncodeChar]
  generalize c.val.toNat = v at valid
  have low (n : Nat) : isContinuation (UInt8.ofNat (n % 64 + 0x80)) = true :=
    isContinuation_low _ (Nat.mod_lt _ (by decide))
  split
  · exact ⟨_, [], rfl, isContinuation_one v (by omega), nofun⟩
  split
  · exact ⟨_, _, rfl, isContinuation_lead _ (by omega), List.forall_mem_singleton.2 (low _)⟩
  split
  · exact ⟨_, _, rfl, isContinuation_lead (v / 4096 % 16 + 32) (by omega),
      List.forall_mem_cons.2 ⟨low _, List.forall_mem_singleton.2 (low _)⟩⟩
  · exact ⟨_, _, rfl, isContinuation_lead (v / 262144 % 8 + 48) (by omega), List.forall_mem_cons.2
      ⟨low _, List.forall_mem_cons.2 ⟨low _, List.forall_mem_singleton.2 (low _)⟩⟩⟩

/-! ## Boundaries of a text -/

theorem encode_cons (c : Char) (rest : List Char) :
    encode (c :: rest) = String.utf8EncodeChar c ++ encode rest := List.flatMap_cons

/-- Behind a character the boundaries are those of the rest. -/
theorem isBoundary_add (c : Char) (rest : List Char) (place : Nat) :
    isBoundary (encode (c :: rest)) (c.utf8Size + place) = isBoundary (encode rest) place := by
  have length := String.length_utf8EncodeChar c
  rw [isBoundary, isBoundary, encode_cons, List.length_append, length,
    List.getElem?_append_right (by omega), length, Nat.add_sub_cancel_left]
  simp

/-- Inside a character there are none. -/
theorem isBoundary_inside {c : Char} {rest : List Char} {place : Nat} (h : place < c.utf8Size) :
    isBoundary (encode (c :: rest)) place = true ↔ place = 0 := by
  obtain ⟨lead, more, bytes, begins, continues⟩ := encodeChar_eq c
  have length := String.length_utf8EncodeChar c
  rw [bytes, List.length_cons] at length
  have short : place ≠ (encode (c :: rest)).length := by
    rw [length_encode, size_cons]
    omega
  rw [isBoundary, decide_eq_false short, Bool.false_or, encode_cons, bytes, List.cons_append]
  rcases place with _ | place
  · simp [begins]
  · have inside : place < more.length := by omega
    rw [List.getElem?_cons_succ, List.getElem?_append_left inside, List.getElem?_eq_getElem inside]
    simp [continues more[place] (List.getElem_mem inside)]

theorem isBoundary_encode {text : List Char} {place : Nat} :
    isBoundary (encode text) place = true ↔ ∃ before, before <+: text ∧ size before = place := by
  induction text generalizing place with
  | nil => simp [isBoundary, encode, size, eq_comm]
  | cons c rest ih =>
    by_cases inside : place < c.utf8Size
    · rw [isBoundary_inside inside]
      constructor
      · rintro rfl
        exact ⟨[], List.nil_prefix, rfl⟩
      · rintro ⟨before, begins, rfl⟩
        rcases before with _ | ⟨d, more⟩
        · rfl
        · rw [(List.cons_prefix_cons.1 begins).1, size_cons] at inside
          omega
    · obtain ⟨place, rfl⟩ := Nat.exists_eq_add_of_le (Nat.le_of_not_lt inside)
      rw [isBoundary_add, ih]
      constructor
      · rintro ⟨before, begins, rfl⟩
        exact ⟨c :: before, List.cons_prefix_cons.2 ⟨rfl, begins⟩, size_cons c before⟩
      · rintro ⟨before, begins, total⟩
        rcases before with _ | ⟨d, more⟩
        · have := c.utf8Size_pos
          simp [size] at total
          omega
        · obtain ⟨rfl, later⟩ := List.cons_prefix_cons.1 begins
          rw [size_cons] at total
          exact ⟨more, later, by omega⟩

/-! ## The search -/

/-- The search finds the last boundary that is not behind the place. -/
theorem lastBoundary?_eq_some {bytes : Bytes} {last place : Nat} (before : last ≤ place)
    (boundary : isBoundary bytes last = true)
    (inside : ∀ k, last < k → k ≤ place → isBoundary bytes k = false) :
    lastBoundary? bytes place = some last := by
  induction place with
  | zero =>
    obtain rfl : last = 0 := Nat.le_zero.1 before
    rw [lastBoundary?, if_pos boundary]
  | succ place ih =>
    rcases Nat.eq_or_lt_of_le before with rfl | earlier
    · rw [lastBoundary?, if_pos boundary]
    · rw [lastBoundary?, inside (place + 1) earlier (Nat.le_refl _), if_neg Bool.false_ne_true]
      exact ih (by omega) fun k after upTo => inside k after (by omega)

/-- The bytes of a beginning of a text are as many of the text's bytes. -/
theorem encode_eq_take {before text : List Char} (h : before <+: text) :
    encode before = (encode text).take (size before) := by
  obtain ⟨rest, rfl⟩ := h
  rw [encode, encode, List.flatMap_append, ← length_encode]
  exact List.take_left.symm

end Emitter.Text.Utf8
