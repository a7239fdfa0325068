/-! JSON values as they are written: numbers keep their digits, and the members of an object their
order and repetitions. -/

namespace Emitter.Json

/-- A number: the digits before the point, those after it, and the exponent with its sign. -/
structure Number where
  negative : Bool
  whole : List Nat
  fraction : Option (List Nat)
  exponent : Option (Bool × List Nat)
deriving DecidableEq, Repr

end Json

/-- A string is `none` when one of its escapes is an unpaired surrogate: it is well written, but
stands for no text. -/
inductive Json where
  | null
  | bool (b : Bool)
  | number (n : Json.Number)
  | string (text : Option String)
  | array (items : List Json)
  | object (members : List (Option String × Json))
deriving Repr

end Emitter
