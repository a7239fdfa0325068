import Emitter.Bytes

/-! Raw constant records, as a front end hands them over: a kind, a sub-kind whose meaning depends
on the kind, and a payload. -/

namespace Emitter

inductive RecordKind where
  | unknown
  | nullPointer
  | unsignedInteger
  | signedInteger
  | floatingPoint
  | string
  | other (tag : UInt32)
deriving DecidableEq, Repr

namespace RecordKind

def ofTag (tag : UInt32) : RecordKind :=
  match tag.toNat with
  | 0 => unknown
  | 1 => nullPointer
  | 2 => unsignedInteger
  | 3 => signedInteger
  | 4 => floatingPoint
  | 5 => string
  | _ => other tag

def name : RecordKind → String
  | unknown => "Unknown"
  | nullPointer => "NullPointer"
  | unsignedInteger => "UnsignedInteger"
  | signedInteger => "SignedInteger"
  | floatingPoint => "FloatingPoint"
  | string => "String"
  | other tag => "Other(" ++ toString tag ++ ")"

end RecordKind

/-- What the front end's evaluator calls a value that it could not classify. -/
inductive ForeignKind where
  | none
  | indeterminate
  | int
  | float
  | fixedPoint
  | complexInt
  | complexFloat
  | lvalue
  | vector
  | array
  | struct
  | union
  | memberPointer
  | addressDifference
deriving DecidableEq, Repr

namespace ForeignKind

def all : List ForeignKind :=
  [none, indeterminate, int, float, fixedPoint, complexInt, complexFloat, lvalue, vector, array,
    struct, union, memberPointer, addressDifference]

def ofTag? (tag : UInt32) : Option ForeignKind := all[tag.toNat]?

def name : ForeignKind → String
  | none => "None"
  | indeterminate => "Indeterminate"
  | int => "Int"
  | float => "Float"
  | fixedPoint => "FixedPoint"
  | complexInt => "ComplexInt"
  | complexFloat => "ComplexFloat"
  | lvalue => "LValue"
  | vector => "Vector"
  | array => "Array"
  | struct => "Struct"
  | union => "Union"
  | memberPointer => "MemberPointer"
  | addressDifference => "AddrLabelDiff"

end ForeignKind

inductive StringEncoding where
  | ascii
  | utf8
  | utf16
  | utf32
  | wide
deriving DecidableEq, Repr

namespace StringEncoding

/-- Marks strings of wide characters; it does not change how they are read. -/
def wideBit : UInt32 := 0x80

def ofTag? (tag : UInt32) : Option StringEncoding :=
  match (tag &&& ~~~wideBit).toNat with
  | 0 => some ascii
  | 1 => some utf8
  | 2 => some utf16
  | 3 => some utf32
  | 4 => some wide
  | _ => none

def name : StringEncoding → String
  | ascii => "Ascii"
  | utf8 => "Utf8"
  | utf16 => "Utf16"
  | utf32 => "Utf32"
  | wide => "Wide"

end StringEncoding

/-- The size of a wide character on the target. -/
inductive WideWidth where
  | bits16
  | bits32
deriving DecidableEq, Repr, Inhabited

/-- Either the bits of a number, or a buffer: a byte count in eight bytes, then the bytes. -/
inductive Payload where
  | bits (value : UInt64)
  | buffer (bytes : Bytes)
deriving DecidableEq, Repr

structure Record where
  kind : RecordKind
  subKind : UInt32
  payload : Payload
deriving DecidableEq, Repr

/-- The buffer of some bytes. -/
def lengthPrefixed (bytes : Bytes) : Bytes :=
  Bytes.ofNat 8 bytes.length ++ bytes

end Emitter
