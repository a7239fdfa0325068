import Emitter.Text.Utf8

/-! UTF-16, little-endian. An unpaired surrogate and a trailing odd byte each read as one
replacement character. -/

namespace Emitter.Text.Utf16

def units (c : Char) : List Nat :=
  if c.toNat < 0x10000 then [c.toNat]
  else [0xD800 + (c.toNat - 0x10000) / 0x400, 0xDC00 + (c.toNat - 0x10000) % 0x400]

def encode (text : List Char) : Bytes :=
  (text.flatMap units).flatMap (Bytes.ofNat 2)

def isHigh (u : Nat) : Bool := 0xD800 ≤ u && u < 0xDC00

def isLow (u : Nat) : Bool := 0xDC00 ≤ u && u < 0xE000

/-- A unit that is not half of a pair. -/
def single (u : Nat) : Char :=
  if isHigh u || isLow u then replacement else Char.ofNat u

def pair (high low : Nat) : Char :=
  Char.ofNat (0x10000 + (high - 0xD800) * 0x400 + (low - 0xDC00))

def ofUnits : List Nat → List Char
  | [] => []
  | [u] => [single u]
  | u :: v :: rest =>
    if isHigh u && isLow v then pair u v :: ofUnits rest else single u :: ofUnits (v :: rest)

def unitsOf : Bytes → List Nat
  | a :: b :: rest => Bytes.toNat [a, b] :: unitsOf rest
  | _ => []

def decode (bytes : Bytes) : List Char :=
  ofUnits (unitsOf bytes) ++ if bytes.length % 2 = 0 then [] else [replacement]

end Emitter.Text.Utf16
