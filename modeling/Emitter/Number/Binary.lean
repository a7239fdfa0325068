import Emitter.Number.Fraction

/-! Binary floating point formats: what a bit pattern stands for, and the pattern nearest to a
fraction. -/

namespace Emitter.Binary

/-- The widths of the two fields below the sign. -/
structure Format where
  fractionBits : Nat
  exponentBits : Nat
deriving DecidableEq, Repr

def single : Format := ⟨23, 8⟩

def double : Format := ⟨52, 11⟩

/-- Finite numbers are `significand * 2 ^ exponent`. -/
inductive Value where
  | nan
  | infinite (negative : Bool)
  | finite (negative : Bool) (significand : Nat) (exponent : Int)
deriving DecidableEq, Repr

namespace Format

-- Powers are those of the core library, also where others are in scope.
attribute [local instance (high)] instPowNat

/-- The exponent of the last place of the smallest numbers. -/
def least (f : Format) : Int :=
  2 - 2 ^ (f.exponentBits - 1) - f.fractionBits

def signBit (f : Format) (negative : Bool) : Nat :=
  if negative then 2 ^ (f.fractionBits + f.exponentBits) else 0

/-- The pattern of positive infinity. -/
def infinity (f : Format) : Nat :=
  (2 ^ f.exponentBits - 1) * 2 ^ f.fractionBits

def value (f : Format) (bits : Nat) : Value :=
  let fraction := bits % 2 ^ f.fractionBits
  let exponent := bits / 2 ^ f.fractionBits % 2 ^ f.exponentBits
  let negative := bits / 2 ^ (f.fractionBits + f.exponentBits) % 2 == 1
  if exponent = 2 ^ f.exponentBits - 1 then
    if fraction = 0 then .infinite negative else .nan
  else if exponent = 0 then .finite negative fraction f.least
  else .finite negative (2 ^ f.fractionBits + fraction) (f.least + (exponent - 1 : Nat))

/-- The pattern of the nearest number, ties to even; beyond the largest, infinity. The places are
counted from the last one, so a carry out of the significand moves into the exponent field. -/
def round (f : Format) (negative : Bool) (x : Fraction) : Nat :=
  if x.num = 0 then f.signBit negative
  else
    let last := max f.least (x.leading 2 - f.fractionBits)
    let places := (x.scale 2 (-last)).nearestEven
    f.signBit negative + min f.infinity ((last - f.least).toNat * 2 ^ f.fractionBits + places)

end Format

/-- The size of a finite number. -/
def magnitude (significand : Nat) (exponent : Int) : Fraction :=
  (Fraction.ofNat significand).scale 2 exponent

end Emitter.Binary
