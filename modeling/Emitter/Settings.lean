import Emitter.Format

/-! What a writer is set up with. -/

namespace Emitter

/-- The unit of indentation. -/
inductive Indent where
  | spaces (count : UInt8)
  | tab
deriving DecidableEq, Repr

instance : Inhabited Indent := ⟨.spaces 4⟩

namespace Indent

def width : Indent → Nat
  | spaces count => count.toNat
  | tab => 1

def char : Indent → Char
  | spaces _ => ' '
  | tab => '\t'

def levels (unit : Indent) (n : Nat) : String :=
  String.ofList (List.replicate (unit.width * n) unit.char)

end Indent

structure Settings where
  header : Option String := none
  indent : Indent := .spaces 4
  format : FileFormat := {}
deriving DecidableEq, Repr, Inhabited

end Emitter
