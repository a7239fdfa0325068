/-! Printing JSON without blanks. Of the characters in a string only the quote, the backslash and
the controls are escaped. -/

namespace Emitter.Json.Printer

def escape (c : Char) : List Char :=
  if c = '\"' then ['\\', '\"']
  else if c = '\\' then ['\\', '\\']
  else if c = '\x08' then ['\\', 'b']
  else if c = '\x0c' then ['\\', 'f']
  else if c = '\n' then ['\\', 'n']
  else if c = '\r' then ['\\', 'r']
  else if c = '\t' then ['\\', 't']
  else if c.toNat < 0x20 then
    ['\\', 'u', '0', '0', Nat.digitChar (c.toNat / 16), Nat.digitChar (c.toNat % 16)]
  else [c]

def quote (text : String) : List Char :=
  '\"' :: text.toList.flatMap escape ++ ['\"']

def member (key : String) (value : List Char) : List Char :=
  quote key ++ ':' :: value

/-- An object of printed members. -/
def object (members : List (List Char)) : List Char :=
  '\x7b' :: (members.intersperse [',']).flatten ++ ['\x7d']

end Emitter.Json.Printer
