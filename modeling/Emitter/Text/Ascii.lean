import Emitter.Bytes

/-! ASCII. A byte outside it reads as a question mark. -/

namespace Emitter.Text.Ascii

def encode (text : List Char) : Bytes :=
  text.map fun c => UInt8.ofNat c.toNat

def decode (bytes : Bytes) : List Char :=
  bytes.map fun b => if b < 0x80 then Char.ofNat b.toNat else '?'

end Emitter.Text.Ascii
