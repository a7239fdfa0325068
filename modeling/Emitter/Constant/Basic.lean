import Emitter.Constant.Integer
import Emitter.Number.General

/-! Typed constants and how they are printed. -/

namespace Emitter

/-- Floats are kept as bit patterns, so that the payload of a NaN survives. -/
inductive Constant where
  | integer (value : IntegerConstant)
  | float32 (bits : UInt32)
  | float64 (bits : UInt64)
  | string (text : String)
  | nullPointer
  | unsupported (message : String)
deriving DecidableEq, Repr

namespace Constant

def isSupported : Constant → Bool
  | unsupported _ => false
  | _ => true

def integer? : Constant → Option IntegerConstant
  | integer value => some value
  | _ => none

def unsupportedMessage? : Constant → Option String
  | unsupported message => some message
  | _ => none

def escapeQuotes (text : List Char) : List Char :=
  text.flatMap fun c => if c = '\"' then ['\\', '\"'] else [c]

def text : Constant → String
  | integer value => value.text
  | float32 bits => General.text General.singleDigits (Binary.single.value bits.toNat)
  | float64 bits => General.text General.doubleDigits (Binary.double.value bits.toNat)
  | string text => String.ofList ('\"' :: escapeQuotes text.toList ++ ['\"'])
  | nullPointer => "<null>"
  | unsupported message => message

end Constant

end Emitter
