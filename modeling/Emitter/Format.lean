import Emitter.Text.Utf16

/-! How text becomes the bytes of a file: its encoding and its line ends. -/

namespace Emitter

inductive TextEncoding where
  | utf8
  | utf8Bom
  | utf16Le
deriving DecidableEq, Repr, Inhabited

namespace TextEncoding

def all : List TextEncoding := [utf8, utf8Bom, utf16Le]

def name : TextEncoding → String
  | utf8 => "utf8"
  | utf8Bom => "utf8-bom"
  | utf16Le => "utf16-le"

def ofName? (name : String) : Option TextEncoding := all.find? (·.name == name)

/-- The byte order mark, if any, and the text. -/
def encode (text : String) : TextEncoding → Bytes
  | utf8 => Text.Utf8.encode text.toList
  | utf8Bom => [0xEF, 0xBB, 0xBF] ++ Text.Utf8.encode text.toList
  | utf16Le => [0xFF, 0xFE] ++ Text.Utf16.encode text.toList

end TextEncoding

inductive LineEnding where
  | lf
  | crlf
deriving DecidableEq, Repr, Inhabited

namespace LineEnding

def all : List LineEnding := [lf, crlf]

def name : LineEnding → String
  | lf => "lf"
  | crlf => "crlf"

def ofName? (name : String) : Option LineEnding := all.find? (·.name == name)

def terminator : LineEnding → String
  | lf => "\n"
  | crlf => "\r\n"

/-- Puts a carriage return before each newline that has none; `before` is the character before
the text. -/
def addReturns (before : Char) : List Char → List Char
  | [] => []
  | c :: rest =>
    if c = '\n' ∧ before ≠ '\r' then '\r' :: '\n' :: addReturns c rest
    else c :: addReturns c rest

theorem addReturns_append (before : Char) (a b : List Char) :
    addReturns before (a ++ b) = addReturns before a ++ addReturns (a.getLastD before) b := by
  induction a generalizing before with
  | nil => rfl
  | cons c rest ih =>
    have h : (c :: rest).getLastD before = rest.getLastD c := by
      cases rest <;> rfl
    simp only [List.cons_append, addReturns, ih, h]
    split <;> rfl

def apply (text : String) : LineEnding → String
  | lf => text
  | crlf => String.ofList (addReturns '\x00' text.toList)

end LineEnding

structure FileFormat where
  encoding : TextEncoding := .utf8
  lineEnding : LineEnding := .lf
deriving DecidableEq, Repr, Inhabited

def FileFormat.render (format : FileFormat) (text : String) : Bytes :=
  format.encoding.encode (format.lineEnding.apply text)

end Emitter
