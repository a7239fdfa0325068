import Emitter.Constant.Basic
import Emitter.Constant.Record
import Emitter.Text.Ascii
import Emitter.Text.Utf16
import Emitter.Text.Utf32

/-! Reading a raw record as a constant. A record that cannot be read becomes an unsupported
constant, which says why. -/

namespace Emitter

/-- Why a record is no constant. -/
inductive Rejection where
  | foreign (kind : ForeignKind)
  | unknownForeign (tag : UInt32)
  | bitsExpected (kind : RecordKind)
  | floatWidth (width : UInt32)
  | bufferExpected
  | stringEncoding (tag : UInt32)
  | noLength (size : Nat)
  | shortBuffer (declared present : Nat)
  | unreadable (kind : RecordKind)
deriving DecidableEq, Repr

def Rejection.message : Rejection → String
  | foreign kind => "Unsupported " ++ kind.name ++ " constant"
  | unknownForeign tag => "Unsupported constant of unknown foreign kind " ++ toString tag
  | bitsExpected kind =>
    "Unsupported " ++ kind.name ++ " constant: expected a literal bit payload"
  | floatWidth width => "Unsupported " ++ toString width ++ " bit floating point constant"
  | bufferExpected => "Unsupported String constant: expected a byte buffer payload"
  | stringEncoding tag => "Unsupported string encoding " ++ toString tag
  | noLength size =>
    "Unsupported string constant: buffer of " ++ toString size ++ " bytes has no length prefix"
  | shortBuffer declared present =>
    "Unsupported string constant: declared " ++ toString declared ++ " bytes but only " ++
      toString present ++ " are present"
  | unreadable kind => "Unsupported constant kind " ++ kind.name

/-- The bytes that a buffer declares; further ones are ignored. -/
def Bytes.content (buffer : Bytes) : Except Rejection Bytes :=
  if buffer.length < 8 then .error (.noLength buffer.length)
  else
    let declared := Bytes.toNat (buffer.take 8)
    let rest := buffer.drop 8
    if declared ≤ rest.length then .ok (rest.take declared)
    else .error (.shortBuffer declared rest.length)

def StringEncoding.decode (wide : WideWidth) (bytes : Bytes) : StringEncoding → List Char
  | ascii => Text.Ascii.decode bytes
  | utf8 => Text.Utf8.decode bytes
  | utf16 => Text.Utf16.decode bytes
  | utf32 => Text.Utf32.decode bytes
  | .wide => match wide with
    | .bits16 => Text.Utf16.decode bytes
    | .bits32 => Text.Utf32.decode bytes

namespace Record

def string? (wide : WideWidth) (r : Record) : Except Rejection Constant :=
  match r.payload with
  | .bits _ => .error .bufferExpected
  | .buffer buffer =>
    match StringEncoding.ofTag? r.subKind with
    | none => .error (.stringEncoding r.subKind)
    | some encoding =>
      buffer.content.map fun bytes => .string (String.ofList (encoding.decode wide bytes))

def bits? (r : Record) : Except Rejection UInt64 :=
  match r.payload with
  | .bits value => .ok value
  | .buffer _ => .error (.bitsExpected r.kind)

def float? (r : Record) : Except Rejection Constant :=
  match r.bits? with
  | .error e => .error e
  | .ok bits =>
    if r.subKind = 32 then .ok (.float32 bits.toUInt32)
    else if r.subKind = 64 then .ok (.float64 bits)
    else .error (.floatWidth r.subKind)

def constant? (wide : WideWidth) (r : Record) : Except Rejection Constant :=
  match r.kind with
  | .unknown =>
    match ForeignKind.ofTag? r.subKind with
    | some foreign => .error (.foreign foreign)
    | none => .error (.unknownForeign r.subKind)
  | .nullPointer => .ok .nullPointer
  | .unsignedInteger => r.bits?.map fun bits => .integer ⟨r.subKind, false, bits⟩
  | .signedInteger => r.bits?.map fun bits => .integer ⟨r.subKind, true, bits⟩
  | .floatingPoint => r.float?
  | .string => r.string? wide
  | .other _ => .error (.unreadable r.kind)

def decode (wide : WideWidth) (r : Record) : Constant :=
  match r.constant? wide with
  | .ok constant => constant
  | .error rejection => .unsupported rejection.message

end Record

end Emitter
