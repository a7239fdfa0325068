import Emitter.Text.Lines

/-! Cutting text at a separator and joining the pieces again. A cut falls apart at each separator
(`split_append`), and pieces that hold no separator come back from their join (`split_join`). -/

namespace Emitter.Text

variable {sep : Char}

/-- A piece of a text holds no separator. -/
theorem not_mem_of_mem_split {text piece : List Char} (h : piece ∈ split sep text) :
    sep ∉ piece := by
  induction text generalizing piece with
  | nil =>
    rw [split, List.mem_singleton] at h
    simp [h]
  | cons c rest ih =>
    unfold split at h
    by_cases same : c = sep
    · rw [if_pos same, List.mem_cons] at h
      rcases h with rfl | h
      · exact List.not_mem_nil
      · exact ih h
    · rw [if_neg same] at h
      cases pieces : split sep rest with
      | nil => exact absurd pieces (split_ne_nil sep rest)
      | cons first more =>
        rw [pieces] at h ih
        simp only [List.mem_cons] at h ih
        rcases h with rfl | h
        · have := ih (.inl rfl)
          simpa [Ne.symm same] using this
        · exact ih (.inr h)

theorem mem_of_mem_split {text piece : List Char} (h : piece ∈ split sep text) :
    ∀ c ∈ piece, c ∈ text := by
  induction text generalizing piece with
  | nil =>
    rw [split, List.mem_singleton] at h
    simp [h]
  | cons first rest ih =>
    by_cases same : first = sep
    · rw [split, if_pos same, List.mem_cons] at h
      rcases h with rfl | h
      · simp
      · exact fun c mem => .tail _ (ih h c mem)
    · rcases pieces : split sep rest with _ | ⟨next, more⟩
      · exact absurd pieces (split_ne_nil sep rest)
      · simp only [split, if_neg same, pieces, List.mem_cons] at h
        rw [pieces] at ih
        rcases h with rfl | h
        · intro c mem
          rcases List.mem_cons.1 mem with rfl | mem
          · exact List.mem_cons_self
          · exact .tail _ (ih List.mem_cons_self c mem)
        · exact fun c mem => .tail _ (ih (.tail _ h) c mem)

theorem split_append (a b : List Char) : split sep (a ++ sep :: b) = split sep a ++ split sep b := by
  induction a with
  | nil => simp [split]
  | cons c rest ih =>
    by_cases same : c = sep
    · simp [split, same, ih]
    · rcases pieces : split sep rest with _ | ⟨first, more⟩
      · exact absurd pieces (split_ne_nil sep rest)
      · simp [split, same, ih, pieces]

theorem split_flatMap (sep : Char) (texts : List (List Char)) :
    split sep (texts.flatMap (· ++ [sep])) = texts.flatMap (split sep) ++ [[]] := by
  induction texts with
  | nil => rfl
  | cons text rest ih =>
    rw [List.flatMap_cons, List.append_assoc, List.singleton_append, split_append, ih,
      List.flatMap_cons, List.append_assoc]

theorem split_eq_singleton {text : List Char} (h : sep ∉ text) : split sep text = [text] := by
  induction text with
  | nil => rfl
  | cons c rest ih =>
    simp only [List.mem_cons, not_or] at h
    simp [split, Ne.symm h.1, ih h.2]

theorem split_inj {a b : List Char} (h : split sep a = split sep b) : a = b := by
  rw [← join_split sep a, h, join_split]

/-- A text is cut in one way at its first separator. -/
theorem append_inj_of_not_mem {a b r s : List Char} (ha : sep ∉ a) (hb : sep ∉ b)
    (h : a ++ sep :: r = b ++ sep :: s) : a = b ∧ r = s := by
  have pieces := congrArg (split sep) h
  rw [split_append, split_append, split_eq_singleton ha, split_eq_singleton hb] at pieces
  obtain ⟨same, rest⟩ := List.cons.inj pieces
  exact ⟨same, split_inj rest⟩

theorem join_append {a b : List (List Char)} (ha : a ≠ []) (hb : b ≠ []) :
    join sep (a ++ b) = join sep a ++ sep :: join sep b := by
  induction a with
  | nil => exact absurd rfl ha
  | cons piece more ih =>
    rcases more with _ | ⟨next, more⟩
    · obtain ⟨first, rest, rfl⟩ := List.exists_cons_of_ne_nil hb
      simp [join]
    · have := ih (List.cons_ne_nil _ _)
      simp only [List.cons_append, join, List.append_assoc] at this ⊢
      rw [this]

/-- Pieces that hold no separator come back from their join. -/
theorem split_join {pieces : List (List Char)} (nonempty : pieces ≠ [])
    (h : ∀ piece ∈ pieces, sep ∉ piece) : split sep (join sep pieces) = pieces := by
  induction pieces with
  | nil => exact absurd rfl nonempty
  | cons piece more ih =>
    have here := split_eq_singleton (h piece List.mem_cons_self)
    rcases more with _ | ⟨next, more⟩
    · exact here
    · rw [join, split_append, here, ih (List.cons_ne_nil _ _) fun p hp => h p (.tail _ hp)]
      · rfl
      · simp

/-- Pieces at the beginning join to a beginning of the text. -/
theorem join_prefix {a b : List (List Char)} : join sep a <+: join sep (a ++ b) := by
  rcases a with _ | ⟨piece, more⟩
  · exact List.nil_prefix
  · rcases b with _ | ⟨next, rest⟩
    · simp
    · rw [join_append (List.cons_ne_nil _ _) (List.cons_ne_nil _ _)]
      exact List.prefix_append _ _

theorem mem_join {pieces : List (List Char)} {c : Char} (h : c ∈ join sep pieces) :
    c = sep ∨ ∃ piece ∈ pieces, c ∈ piece := by
  induction pieces with
  | nil => cases h
  | cons piece more ih =>
    rcases more with _ | ⟨next, more⟩
    · exact .inr ⟨piece, List.mem_cons_self, h⟩
    · rw [join, List.mem_append, List.mem_cons] at h
      · rcases h with here | same | later
        · exact .inr ⟨piece, List.mem_cons_self, here⟩
        · exact .inl same
        · rcases ih later with same | ⟨other, known, mem⟩
          · exact .inl same
          · exact .inr ⟨other, .tail _ known, mem⟩
      · simp

/-- A separator before each piece, in place of one between each two. -/
theorem cons_join {pieces : List (List Char)} (nonempty : pieces ≠ []) :
    sep :: join sep pieces = pieces.flatMap (sep :: ·) := by
  induction pieces with
  | nil => exact absurd rfl nonempty
  | cons piece more ih =>
    rcases more with _ | ⟨next, more⟩
    · simp [join]
    · rw [join, List.flatMap_cons, ← ih (List.cons_ne_nil _ _)]
      · simp
      · simp

theorem join_concat (a : List (List Char)) (piece : List Char) :
    join sep (a ++ [piece]) = (if a = [] then [] else join sep a ++ [sep]) ++ piece := by
  by_cases nothing : a = []
  · simp [nothing, join]
  · simp [nothing, join_append nothing (List.cons_ne_nil piece []), join]

end Emitter.Text
