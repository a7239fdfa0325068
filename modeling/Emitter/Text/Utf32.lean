import Emitter.Text.Utf8

/-! UTF-32, little-endian. A unit that is no character and a trailing partial unit each read as
one replacement character. -/

namespace Emitter.Text.Utf32

def encode (text : List Char) : Bytes :=
  text.flatMap fun c => Bytes.ofNat 4 c.toNat

def char (n : Nat) : Char :=
  if n.isValidChar then Char.ofNat n else replacement

def unitsOf : Bytes → List Nat
  | a :: b :: c :: d :: rest => Bytes.toNat [a, b, c, d] :: unitsOf rest
  | _ => []

def decode (bytes : Bytes) : List Char :=
  (unitsOf bytes).map char ++ if bytes.length % 4 = 0 then [] else [replacement]

end Emitter.Text.Utf32
