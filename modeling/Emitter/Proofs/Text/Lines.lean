import Emitter.Proofs.Text.Pieces

/-! What the lines of a text are, said from its beginning on: a line goes up to the next newline,
without the carriage return that may stand before it, or up to the end of the text. Cutting gives
these lines and no others. -/

namespace Emitter.Text

/-- The text falls into these lines. -/
inductive Lined : List Char → List (List Char) → Prop
  | nil : Lined [] []
  | last {line : List Char} (nonempty : line ≠ []) (whole : '\n' ∉ line) : Lined line [line]
  | newline {line rest : List Char} {lines : List (List Char)} (whole : '\n' ∉ line)
    (open_ : line.getLast? ≠ some '\r') (more : Lined rest lines) :
    Lined (line ++ '\n' :: rest) (line :: lines)
  | returnNewline {line rest : List Char} {lines : List (List Char)} (whole : '\n' ∉ line)
    (more : Lined rest lines) : Lined (line ++ '\r' :: '\n' :: rest) (line :: lines)

/-- The part before the first newline is a line, whatever comes after it. -/
theorem lines_append_newline {line : List Char} (whole : '\n' ∉ line) (rest : List Char) :
    lines (line ++ '\n' :: rest) = chopReturn line :: lines rest := by
  have pieces : split '\n' (line ++ '\n' :: rest) = line :: split '\n' rest := by
    rw [split_append, split_eq_singleton whole, List.singleton_append]
  obtain ⟨first, more, cut⟩ := List.exists_cons_of_ne_nil (split_ne_nil '\n' rest)
  simp [lines, pieces, cut]

theorem lines_of_not_mem {line : List Char} (whole : '\n' ∉ line) :
    lines line = if line = [] then [] else [line] := by
  simp [lines, split_eq_singleton whole]

theorem chopReturn_append_return (line : List Char) : chopReturn (line ++ ['\r']) = line := by
  simp [chopReturn]

theorem Lined.eq_lines {text : List Char} {ls : List (List Char)} (lined : Lined text ls) :
    ls = lines text := by
  induction lined with
  | nil => rfl
  | last nonempty whole => rw [lines_of_not_mem whole, if_neg nonempty]
  | newline whole open_ _ ih => rw [lines_append_newline whole, chopReturn, if_neg open_, ih]
  | @returnNewline line rest _ whole _ ih =>
    have whole' : '\n' ∉ line ++ ['\r'] := by simp [whole]
    have text : line ++ '\r' :: '\n' :: rest = (line ++ ['\r']) ++ '\n' :: rest := by simp
    rw [text, lines_append_newline whole', chopReturn_append_return, ih]

/-- One more line in front, closed by a newline. -/
theorem Lined.cons {line rest : List Char} {ls : List (List Char)} (whole : '\n' ∉ line)
    (more : Lined rest ls) : Lined (line ++ '\n' :: rest) (chopReturn line :: ls) := by
  by_cases returns : line.getLast? = some '\r'
  · obtain ⟨front, rfl⟩ := List.getLast?_eq_some_iff.1 returns
    have whole' : '\n' ∉ front := fun mem => whole (List.mem_append_left _ mem)
    have text : front ++ ['\r'] ++ '\n' :: rest = front ++ '\r' :: '\n' :: rest := by simp
    rw [chopReturn_append_return, text]
    exact .returnNewline whole' more
  · rw [chopReturn, if_neg returns]
    exact .newline whole returns more

theorem lined_lines (text : List Char) : Lined text (lines text) := by
  -- on the number of characters, as the rest after a newline is no part of the text's structure
  induction length : text.length using Nat.strongRecOn generalizing text with
  | _ n ih =>
    subst length
    by_cases newline : '\n' ∈ text
    · obtain ⟨line, rest, rfl, whole⟩ := List.eq_append_cons_of_mem newline
      rw [lines_append_newline whole]
      exact .cons whole (ih rest.length (by simp; omega) rest rfl)
    · rw [lines_of_not_mem newline]
      split
      · next empty => exact empty ▸ .nil
      · next nonempty => exact .last nonempty newline

theorem lined_iff {text : List Char} {ls : List (List Char)} : Lined text ls ↔ ls = lines text :=
  ⟨Lined.eq_lines, fun same => same ▸ lined_lines text⟩

end Emitter.Text
