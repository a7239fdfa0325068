import Emitter.Constant.Basic
import Emitter.Json.Printer
import Emitter.Json.Reader
import Emitter.Json.View

/-! Constants as JSON: an object with a kind and a value, or an array of the two. -/

namespace Emitter

namespace IntegerConstant

-- Powers are those of the core library, also where others are in scope.
attribute [local instance (high)] instPowNat

def ofParts (size signed bits : Json) : Option IntegerConstant := do
  let size ← size.natural? (2 ^ (32 : Nat))
  let signed ← signed.bool?
  let bits ← bits.natural? (2 ^ (64 : Nat))
  return ⟨UInt32.ofNat size, signed, UInt64.ofNat bits⟩

def ofJson? : Json → Option IntegerConstant
  | .array [size, signed, bits] => ofParts size signed bits
  | .object members => do
    ofParts (← Json.only "size_bits" members) (← Json.only "is_signed" members)
      (← Json.only "bits" members)
  | _ => none

end IntegerConstant

namespace Constant

/-- Under its key, a kind is its name, or an object with the name as its only key and null as the
value. -/
def kind? : Json → Option String
  | .string name => name
  | .object [(name, .null)] => name
  | _ => none

/-- The value may be left out only where there is nothing to say. -/
def ofKind (kind : String) (value : Option Json) : Option Constant :=
  match kind, value with
  | "integer", some v => (IntegerConstant.ofJson? v).map integer
  | "float32", some v => v.single?.map float32
  | "float64", some v => v.double?.map float64
  | "string", some v => v.string?.map string
  | "unsupported", some v => v.string?.map unsupported
  | "null_pointer", some .null => some nullPointer
  | "null_pointer", none => some nullPointer
  | _, _ => none

/-- The value stands before the kind, so it has to be held until the kind is known. -/
def isHeld (members : List (Option String × Json)) : Bool :=
  (members.dropWhile (·.1 != some "value")).any (·.1 == some "kind")

/-- In an array the kind is its name and nothing else. -/
def ofJson? : Json → Option Constant
  | .array [kind, value] => do ofKind (← kind.string?) (some value)
  | .object members => do
    let kind ← kind? (← Json.only "kind" members)
    match ← Json.valuesOf "value" members with
    | [] => ofKind kind none
    | [value] =>
      if isHeld members && !value.canBeHeld then none
      else ofKind kind (some value)
    | _ => none
  | _ => none

def read (text : String) : Option Constant :=
  (Json.read text).bind ofJson?

section Printing
open Json.Printer

def tagged (kind : String) (value : List Char) : List Char :=
  object [member "kind" (quote kind), member "value" value]

def natural (n : Nat) : List Char := Nat.toDigits 10 n

/-- Floats have no text here, since theirs is not exact. -/
def json? : Constant → Option String
  | integer v =>
    some (String.ofList (tagged "integer" (object [
      member "size_bits" (natural v.sizeBits.toNat),
      member "is_signed" (toString v.signed).toList,
      member "bits" (natural v.bits.toNat)])))
  | string text => some (String.ofList (tagged "string" (quote text)))
  | nullPointer => some (String.ofList (object [member "kind" (quote "null_pointer")]))
  | unsupported message => some (String.ofList (tagged "unsupported" (quote message)))
  | float32 _ => none
  | float64 _ => none

end Printing

end Constant

end Emitter
