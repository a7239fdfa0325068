/-! Integer constants: a bit pattern with a declared width and signedness. -/

namespace Emitter

/-- All 64 bits are kept; the value is read from the low ones. -/
structure IntegerConstant where
  sizeBits : UInt32
  signed : Bool
  bits : UInt64
deriving DecidableEq, Repr

namespace IntegerConstant

def ofInt8 (v : Int8) : IntegerConstant := ⟨8, true, v.toInt64.toUInt64⟩
def ofInt16 (v : Int16) : IntegerConstant := ⟨16, true, v.toInt64.toUInt64⟩
def ofInt32 (v : Int32) : IntegerConstant := ⟨32, true, v.toInt64.toUInt64⟩
def ofInt64 (v : Int64) : IntegerConstant := ⟨64, true, v.toUInt64⟩
def ofUInt8 (v : UInt8) : IntegerConstant := ⟨8, false, v.toUInt64⟩
def ofUInt16 (v : UInt16) : IntegerConstant := ⟨16, false, v.toUInt64⟩
def ofUInt32 (v : UInt32) : IntegerConstant := ⟨32, false, v.toUInt64⟩
def ofUInt64 (v : UInt64) : IntegerConstant := ⟨64, false, v⟩

/-- A width of zero or above 64 counts as 64. -/
def width (c : IntegerConstant) : Nat :=
  if 1 ≤ c.sizeBits ∧ c.sizeBits ≤ 64 then c.sizeBits.toNat else 64

/-- Sign-extended from the declared width. -/
def signedValue (c : IntegerConstant) : Int :=
  ((c.bits.toBitVec <<< (64 - c.width)).sshiftRight (64 - c.width)).toInt

/-- Cut to the declared width. -/
def unsignedValue (c : IntegerConstant) : Nat :=
  if c.width = 64 then c.bits.toNat
  else (c.bits.toBitVec &&& ((1#64 <<< c.width) - 1#64)).toNat

def text (c : IntegerConstant) : String :=
  if c.signed then toString c.signedValue else toString c.unsignedValue

end IntegerConstant

end Emitter
