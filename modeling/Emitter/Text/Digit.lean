/-! Digits in text, and the numbers that they stand for. -/

namespace Emitter.Text

-- Powers are those of the core library, also where others are in scope.
attribute [local instance (high)] instPowNat

def digit? (c : Char) : Option Nat :=
  if '0' ≤ c ∧ c ≤ '9' then some (c.toNat - '0'.toNat) else none

/-- Hexadecimal, in either case. -/
def hexDigit? (c : Char) : Option Nat :=
  if '0' ≤ c ∧ c ≤ '9' then some (c.toNat - '0'.toNat)
  else if 'a' ≤ c ∧ c ≤ 'f' then some (c.toNat - 'a'.toNat + 10)
  else if 'A' ≤ c ∧ c ≤ 'F' then some (c.toNat - 'A'.toNat + 10)
  else none

/-- The number that digits stand for, the highest first. -/
def number (base : Nat) (digits : List Nat) : Nat :=
  digits.foldl (fun n d => n * base + d) 0

/-- Lower-case hexadecimal digits without padding. -/
def hex (n : Nat) : List Char := Nat.toDigits 16 n

theorem foldl_number (base n : Nat) (ds : List Nat) :
    ds.foldl (fun n d => n * base + d) n = n * base ^ ds.length + number base ds := by
  induction ds generalizing n with
  | nil => simp [number]
  | cons d ds ih =>
    have h : number base (d :: ds) = d * base ^ ds.length + number base ds := by
      rw [← ih, number, List.foldl_cons, Nat.zero_mul, Nat.zero_add]
    rw [List.foldl_cons, ih, h, List.length_cons, Nat.pow_succ', Nat.add_mul, Nat.mul_assoc]
    omega

theorem number_append (base : Nat) (ds es : List Nat) :
    number base (ds ++ es) = number base ds * base ^ es.length + number base es := by
  rw [number, List.foldl_append, foldl_number, ← number]

theorem hexDigit?_digitChar : ∀ d < 16, hexDigit? (Nat.digitChar d) = some d := by decide

theorem hex_eq (n : Nat) :
    hex n = (if n < 16 then [] else hex (n / 16)) ++ [Nat.digitChar (n % 16)] := by
  rw [hex, Nat.toDigits_eq_if (by decide)]
  split
  · next small => rw [Nat.mod_eq_of_lt small]; rfl
  · rfl

theorem exists_of_mem_hex {n : Nat} {c : Char} (h : c ∈ hex n) : ∃ d < 16, c = Nat.digitChar d := by
  induction n using Nat.strongRecOn with
  | ind n ih =>
    rw [hex_eq, List.mem_append, List.mem_singleton] at h
    rcases h with high | last
    · split at high
      · cases high
      · exact ih _ (by omega) high
    · exact ⟨n % 16, by omega, last⟩

/-- Read back, the digits are the number again. -/
theorem number_hex (n : Nat) : number 16 ((hex n).filterMap hexDigit?) = n := by
  induction n using Nat.strongRecOn with
  | ind n ih =>
    have last : [Nat.digitChar (n % 16)].filterMap hexDigit? = [n % 16] := by
      simp [hexDigit?_digitChar (n % 16) (by omega)]
    rw [hex_eq, List.filterMap_append, last, number_append]
    split
    · simp [number]
      omega
    · rw [ih (n / 16) (by omega)]
      simp [number]
      omega

end Emitter.Text
