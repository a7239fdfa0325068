import Emitter.Bytes

/-! UTF-8. Reading never fails: each longest ill-formed beginning of a character counts as one
replacement character. -/

namespace Emitter.Text

def replacement : Char := '\ufffd'

namespace Utf8

-- Sums start from the zero of the core library, also where others are in scope.
attribute [local instance (high)] Zero.ofOfNat0

def encode (text : List Char) : Bytes :=
  text.flatMap String.utf8EncodeChar

def size (text : List Char) : Nat :=
  (text.map Char.utf8Size).sum

/-- Between characters, or inside one: the bits so far, the bytes owed, and the range of the next
one. -/
inductive State where
  | start
  | inside (bits owed : Nat) (low high : UInt8)
deriving DecidableEq, Repr

/-- A byte where a character may begin. -/
def first (b : UInt8) : List Char × State :=
  if b < 0x80 then ([Char.ofNat b.toNat], .start)
  else if 0xC2 ≤ b ∧ b ≤ 0xDF then ([], .inside (b.toNat - 0xC0) 1 0x80 0xBF)
  else if b = 0xE0 then ([], .inside 0 2 0xA0 0xBF)
  else if b = 0xED then ([], .inside 0xD 2 0x80 0x9F)
  else if 0xE1 ≤ b ∧ b ≤ 0xEF then ([], .inside (b.toNat - 0xE0) 2 0x80 0xBF)
  else if b = 0xF0 then ([], .inside 0 3 0x90 0xBF)
  else if 0xF1 ≤ b ∧ b ≤ 0xF3 then ([], .inside (b.toNat - 0xF0) 3 0x80 0xBF)
  else if b = 0xF4 then ([], .inside 4 3 0x80 0x8F)
  else ([replacement], .start)

/-- The characters that a byte completes, and the state after it. -/
def step : State → UInt8 → List Char × State
  | .start, b => first b
  | .inside bits owed low high, b =>
    if low ≤ b ∧ b ≤ high then
      let bits := bits * 64 + b.toNat % 64
      if owed ≤ 1 then ([Char.ofNat bits], .start)
      else ([], .inside bits (owed - 1) 0x80 0xBF)
    else
      let (chars, state) := first b
      (replacement :: chars, state)

def decodeFrom : State → Bytes → List Char
  | .start, [] => []
  | .inside .., [] => [replacement]
  | state, b :: rest => (step state b).1 ++ decodeFrom (step state b).2 rest

def decode (bytes : Bytes) : List Char :=
  decodeFrom .start bytes

/-- The text, if the bytes are exactly its encoding. -/
def decode? (bytes : Bytes) : Option (List Char) :=
  if encode (decode bytes) = bytes then some (decode bytes) else none

theorem size_cons (c : Char) (rest : List Char) : size (c :: rest) = c.utf8Size + size rest := by
  simp [size]

theorem size_append (a b : List Char) : size (a ++ b) = size a + size b := by
  simp [size]

theorem length_encode (text : List Char) : (encode text).length = size text := by
  simp [encode, size, List.length_flatMap, String.length_utf8EncodeChar]

end Utf8

end Emitter.Text
