/-! Bytes, and numbers as little-endian bytes. -/

namespace Emitter

abbrev Bytes := List UInt8

namespace Bytes

-- Powers are those of the core library, also where others are in scope.
attribute [local instance (high)] instPowNat

/-- The `width` low bytes of a number, the lowest first. -/
def ofNat : (width : Nat) → Nat → Bytes
  | 0, _ => []
  | width + 1, n => UInt8.ofNat n :: ofNat width (n / 256)

def toNat : Bytes → Nat
  | [] => 0
  | b :: rest => b.toNat + 256 * toNat rest

@[simp] theorem length_ofNat (width n : Nat) : (ofNat width n).length = width := by
  induction width generalizing n with
  | zero => rfl
  | succ width ih => simp [ofNat, ih]

theorem toNat_ofNat (width n : Nat) : toNat (ofNat width n) = n % 256 ^ width := by
  induction width generalizing n with
  | zero => simp [ofNat, toNat, Nat.mod_one]
  | succ width ih =>
    have h : 256 ^ (width + 1) = 256 * 256 ^ width := Nat.pow_succ'
    rw [h, Nat.mod_mul]
    simp [ofNat, toNat, ih]

end Bytes

end Emitter
