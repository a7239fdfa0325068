import Emitter.Text.Lines
import Emitter.Text.Quoted

/-! Comparing two texts line by line. -/

namespace Emitter

/-- A line number, counted from one, at which two texts differ, and what each has there. -/
structure Mismatch where
  number : Nat
  expected : Option (List Char)
  actual : Option (List Char)
deriving DecidableEq, Repr

namespace Mismatch

/-- Pairs the lines of two texts; where one text has ended, its side is empty. -/
def between (number : Nat) : List (List Char) → List (List Char) → List Mismatch
  | [], [] => []
  | e :: es, [] => ⟨number, some e, none⟩ :: between (number + 1) es []
  | [], a :: as => ⟨number, none, some a⟩ :: between (number + 1) [] as
  | e :: es, a :: as =>
    if e = a then between (number + 1) es as
    else ⟨number, some e, some a⟩ :: between (number + 1) es as

def side : Option (List Char) → String
  | some line => Text.quote (String.ofList line)
  | none => "<missing>"

def text (m : Mismatch) : String :=
  "Line " ++ toString m.number ++ ":\n" ++
    "  expected: " ++ side m.expected ++ "\n" ++
    "  actual:   " ++ side m.actual ++ "\n"

end Mismatch

/-- Lines end at newlines only, so each text has one more line than newlines. -/
def mismatches (expected actual : String) : List Mismatch :=
  Mismatch.between 1 (Text.split '\n' expected.toList) (Text.split '\n' actual.toList)

/-- Nothing to report when the texts are the same. -/
def contentDiff (expected actual : String) : Option String :=
  if expected = actual then none
  else some ("Content mismatch:\n" ++ String.join ((mismatches expected actual).map Mismatch.text))

end Emitter
