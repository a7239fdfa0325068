import Emitter.Json.Value
import Emitter.Number.Binary
import Emitter.Text.Digit

/-! What a JSON number stands for: an integer where it is written as one and fits in 64 bits, and
a double otherwise. Doubles come from the digits that fit in 64 bits, scaled by one power of ten
in double arithmetic. -/

namespace Emitter.Json

-- Powers are those of the core library, also where others are in scope.
attribute [local instance (high)] instPowNat

/-- A number as it is read; doubles are bit patterns. -/
inductive Reading where
  | natural (n : Nat)
  | negative (n : Nat)
  | double (bits : Nat)
deriving DecidableEq, Repr

namespace Reading

def maxWord : Nat := 2 ^ (64 : Nat) - 1

/-- Takes digits while the number fits in 64 bits, and gives back the others. -/
def absorb : Nat → List Nat → Nat × List Nat
  | n, [] => (n, [])
  | n, d :: rest => if n * 10 + d ≤ maxWord then absorb (n * 10 + d) rest else (n, d :: rest)

def nearest (x : Fraction) : Nat :=
  Binary.double.round false x

/-- The size of a finite pattern, whatever its sign. -/
def size (bits : Nat) : Fraction :=
  match Binary.double.value bits with
  | .finite _ significand exponent => Binary.magnitude significand exponent
  | _ => ⟨0, 1⟩

def tenPower (e : Nat) : Fraction :=
  size (nearest (.ofNat (10 ^ e)))

/-- The largest exponent of a power of ten that is a double. -/
def maxPower : Nat := 308

/-- Divides by the largest power until the rest of the exponent is one division away. -/
def divide (bits e : Nat) : Nat :=
  if bits = 0 then 0
  else if e ≤ maxPower then nearest ((size bits).div (tenPower e))
  else divide (nearest ((size bits).div (tenPower maxPower))) (e - maxPower)
termination_by e
decreasing_by simp only [maxPower] at *; omega

/-- `n * 10 ^ e`; `none` when that is too large. -/
def scaled (n : Nat) : Int → Option Nat
  | .ofNat e =>
    let bits := nearest (.ofNat n)
    if bits = 0 then some 0
    else if maxPower < e then none
    else
      let bits := nearest ((size bits).mul (tenPower e))
      if bits = Binary.double.infinity then none else some bits
  | .negSucc e => some (divide (nearest (.ofNat n)) (e + 1))

/-- The largest exponent that is counted. -/
def maxExponent : Nat := 2 ^ (31 : Nat) - 1

def withExponent (n : Nat) (start : Int) : Option (Bool × List Nat) → Option Nat
  | none => scaled n start
  | some (down, digits) =>
    let e := Text.number 10 digits
    if maxExponent < e then if n ≠ 0 ∧ !down then none else some 0
    else scaled n (if down then start - e else start + e)

end Reading

/-- `none` when the number is too large for a double. -/
def Number.read (x : Number) : Option Reading :=
  let (n, dropped) := Reading.absorb 0 x.whole
  let signed (bits : Nat) : Reading := .double (Binary.double.signBit x.negative + bits)
  match x.fraction, x.exponent with
  | none, none =>
    if dropped ≠ [] then (Reading.scaled n dropped.length).map signed
    else if !x.negative then some (.natural n)
    else if n = 0 ∨ 2 ^ (63 : Nat) < n then some (signed (Reading.nearest (.ofNat n)))
    else some (.negative n)
  | fraction, exponent =>
    let digits := fraction.getD []
    let (n, ignored) := Reading.absorb n digits
    let start : Int := dropped.length - (digits.length - ignored.length : Nat)
    (Reading.withExponent n start exponent).map signed

end Emitter.Json
