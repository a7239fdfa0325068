/-! Cutting text at a separator, and into lines. A line ends with a newline, or with a carriage
return and a newline; what follows the last newline is a line unless it is empty. -/

namespace Emitter.Text

/-- The pieces between the separators, one more than there are separators. -/
def split (sep : Char) : List Char → List (List Char)
  | [] => [[]]
  | c :: rest =>
    if c = sep then [] :: split sep rest
    else match split sep rest with
      | [] => [[c]]
      | piece :: pieces => (c :: piece) :: pieces

/-- Puts one separator between each two pieces. -/
def join (sep : Char) : List (List Char) → List Char
  | [] => []
  | [piece] => piece
  | piece :: pieces => piece ++ sep :: join sep pieces

/-- Drops one carriage return at the end. -/
def chopReturn (line : List Char) : List Char :=
  if line.getLast? = some '\r' then line.dropLast else line

/-- Only a line closed by a newline loses the carriage return before it. -/
def lines (text : List Char) : List (List Char) :=
  let pieces := split '\n' text
  let last := pieces.getLastD []
  pieces.dropLast.map chopReturn ++ if last.isEmpty then [] else [last]

theorem split_ne_nil (sep : Char) (text : List Char) : split sep text ≠ [] := by
  cases text with
  | nil => simp [split]
  | cons c rest => simp only [split]; split <;> (try split) <;> simp

theorem join_split (sep : Char) (text : List Char) : join sep (split sep text) = text := by
  induction text with
  | nil => rfl
  | cons c rest ih =>
    have hne := split_ne_nil sep rest
    simp only [split]
    split
    next h =>
      subst h
      cases hs : split c rest with
      | nil => exact absurd hs hne
      | cons piece pieces => rw [hs] at ih; simp [join, ih]
    next h =>
      cases hs : split sep rest with
      | nil => exact absurd hs hne
      | cons piece pieces =>
        rw [hs] at ih
        cases pieces <;> simp_all [join]

end Emitter.Text
