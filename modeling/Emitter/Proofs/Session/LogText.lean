import Emitter.Proofs.Path.Below
import Emitter.Session.FileLog
import Mathlib.Algebra.Order.BigOperators.Group.List
import Mathlib.Algebra.GroupWithZero.Nat
import Mathlib.Algebra.Order.Group.Nat
import Mathlib.Data.List.DropRight

/-! The text of a log. Each path has a line, and what is read from a line are its entries. A line
that has no newline in it and no blanks around it is its own entry, and these are the lines that are
read back as they were written (`read_render_iff`): of any other, something is lost. -/

namespace Emitter

namespace Text

/-! ## Lines -/

theorem lines_flatMap (texts : List (List Char)) :
    lines (texts.flatMap (· ++ ['\n'])) = (texts.flatMap (split '\n')).map chopReturn := by
  rw [lines, split_flatMap]
  simp

theorem flatten_sublist_join (sep : Char) (pieces : List (List Char)) :
    pieces.flatten.Sublist (join sep pieces) := by
  induction pieces with
  | nil => exact List.Sublist.refl _
  | cons piece more ih =>
    rcases more with _ | ⟨next, more⟩
    · simp [join]
    · rw [List.flatten_cons, join]
      · exact (List.Sublist.refl piece).append (ih.cons sep)
      · simp

theorem flatten_split_sublist (sep : Char) (text : List Char) :
    (split sep text).flatten.Sublist text := by
  have := flatten_sublist_join sep (split sep text)
  rwa [join_split] at this

theorem chopReturn_sublist (line : List Char) : (chopReturn line).Sublist line := by
  unfold chopReturn
  split
  · exact List.dropLast_sublist line
  · exact List.Sublist.refl line

theorem trim_eq (text : List Char) :
    trim text = (text.dropWhile isBlank).rdropWhile isBlank := rfl

theorem trim_sublist (text : List Char) : (trim text).Sublist text :=
  (List.rdropWhile_prefix ..).sublist.trans (List.dropWhile_sublist _)

/-- A text that trimming leaves alone does not end with a carriage return. -/
theorem chopReturn_of_trim {text : List Char} (h : trim text = text) : chopReturn text = text := by
  rcases List.eq_nil_or_concat' text with rfl | ⟨init, last, ends⟩
  · rfl
  have nonempty : (text.dropWhile isBlank).rdropWhile isBlank ≠ [] := by
    rw [← trim_eq, h, ends]
    simp
  have solid := List.rdropWhile_last_not isBlank _ nonempty
  have last_eq : ((text.dropWhile isBlank).rdropWhile isBlank).getLast? = some last := by
    rw [← trim_eq, h, ends, List.getLast?_concat]
  rw [List.getLast_eq_iff_getLast?_eq_some nonempty |>.2 last_eq] at solid
  rw [chopReturn, if_neg]
  rw [ends, List.getLast?_concat, Option.some.injEq]
  rintro rfl
  exact solid rfl

end Text

namespace FileLog

/-! ## Lines of a log -/

def line (base p : Path) : List Char := (Path.relative base p).toPortable.toList

/-- What is read from a line. -/
def entries (line : List Char) : List (List Char) :=
  ((Text.split '\n' line).map fun piece => Text.trim (Text.chopReturn piece)).filter (· ≠ [])

/-- A line that can be read back. -/
def Legible (line : List Char) : Prop := '\n' ∉ line ∧ Text.trim line = line

instance : DecidablePred Legible := fun line =>
  inferInstanceAs (Decidable ('\n' ∉ line ∧ Text.trim line = line))

theorem toList_render (base : Path) (written : List Path) :
    (render base written).toList = (written.map (line base)).flatMap (· ++ ['\n']) := by
  simp [render, String.toList_join, List.flatMap_map, line]

/-- The log is read line by line. -/
theorem read_render (base : Path) (written : List Path) :
    read base (render base written) = (written.flatMap fun p => entries (line base p)).map
      fun entry => Path.absolutize base (.ofPortable (String.ofList entry)) := by
  rw [read, toList_render, Text.lines_flatMap]
  simp only [entries, List.map_map, List.flatMap_map, List.map_flatMap, List.filter_flatMap]
  rfl

theorem entries_of_legible {line : List Char} (h : Legible line) (nonempty : line ≠ []) :
    entries line = [line] := by
  simp [entries, Text.split_eq_singleton h.1, Text.chopReturn_of_trim h.2, h.2, nonempty]

/-- A piece of a line, without what is dropped around it. -/
theorem entry_sublist (piece : List Char) :
    (Text.trim (Text.chopReturn piece)).Sublist piece :=
  (Text.trim_sublist _).trans (Text.chopReturn_sublist piece)

theorem entries_sublist (line : List Char) : (entries line).flatten.Sublist line := by
  have pieces : (entries line).flatten.Sublist (Text.split '\n' line).flatten := by
    refine List.filter_sublist.flatten.trans ?_
    have whole : (Text.split '\n' line).flatMap id = (Text.split '\n' line).flatten :=
      List.flatMap_id
    rw [← List.flatMap_def, ← whole]
    exact List.Sublist.flatMap_right _ fun piece _ => entry_sublist piece
  exact pieces.trans (Text.flatten_split_sublist '\n' line)

theorem newline_not_mem_entries {line entry : List Char} (h : entry ∈ entries line) :
    '\n' ∉ entry := by
  obtain ⟨piece, cut, rfl⟩ := List.mem_map.1 (List.mem_filter.1 h).1
  exact fun mem => Text.not_mem_of_mem_split cut ((entry_sublist piece).subset mem)

/-- A line from which nothing is lost is legible. -/
theorem legible_of_entries {line : List Char} (h : (entries line).flatten = line) :
    Legible line := by
  have oneLine : '\n' ∉ line := by
    rw [← h]
    intro mem
    obtain ⟨entry, known, mem⟩ := List.mem_flatten.1 mem
    exact newline_not_mem_entries known mem
  refine ⟨oneLine, ?_⟩
  have entry : Text.trim (Text.chopReturn line) = line := by
    rw [entries, Text.split_eq_singleton oneLine, List.map_singleton] at h
    by_cases nothing : Text.trim (Text.chopReturn line) = []
    · rw [List.filter_cons_of_neg (by simpa using nothing)] at h
      rw [nothing, ← h]
      rfl
    · rw [List.filter_cons_of_pos (by simpa using nothing)] at h
      simpa using h
  have chopped : Text.chopReturn line = line := by
    refine (Text.chopReturn_sublist line).eq_of_length_le ?_
    have := (Text.trim_sublist (Text.chopReturn line)).length_le
    rwa [entry] at this
  rwa [chopped] at entry

/-! ## Logs of paths below the base -/

/-- A path below the base, with a line that names it. -/
structure Named (outer : List String) (p : Path) (names : List String) : Prop where
  isName : ∀ name ∈ names, Path.IsName name
  below : names ≠ []
  portable : ∀ name ∈ names, '\\' ∉ name.toList
  path : p = Path.ofNames (outer ++ names)

section Named

variable {outer : List String} (ho : ∀ name ∈ outer, Path.IsName name) {p : Path}
  {names : List String} (named : Named outer p names)
include ho named

omit ho in
theorem Named.backslash_not_mem : '\\' ∉ Text.join '/' (names.map String.toList) := by
  intro mem
  rcases Text.mem_join mem with same | ⟨piece, known, mem⟩
  · cases same
  · obtain ⟨name, here, rfl⟩ := List.mem_map.1 known
    exact named.portable name here mem

theorem Named.line_eq : line (Path.ofNames outer) p = Text.join '/' (names.map String.toList) := by
  have text := Path.text_relative ho named.isName named.below
  rw [line, Path.toPortable, named.path, Path.forwardSlashes_eq, text]
  rw [text]
  exact named.backslash_not_mem

theorem Named.line_ne_nil : line (Path.ofNames outer) p ≠ [] := by
  obtain ⟨first, rest, rfl⟩ := List.exists_cons_of_ne_nil named.below
  have nonempty := (named.isName first List.mem_cons_self).ne_empty
  rw [named.line_eq ho]
  rcases rest with _ | ⟨next, rest⟩ <;> simp [Text.join, nonempty]

theorem Named.absolutize_line :
    Path.absolutize (Path.ofNames outer) (.ofPortable (String.ofList (line (Path.ofNames outer) p))) =
      p := by
  rw [Path.ofPortable, Path.forwardSlashes_eq, named.line_eq ho,
    Path.absolutize_join ho named.isName named.below, named.path]
  rw [named.line_eq ho, String.toList_ofList]
  exact named.backslash_not_mem

/-- The line of a path that was read is not longer than what it was read from. -/
theorem Named.length_le {entry : List Char}
    (read : Path.absolutize (Path.ofNames outer) (.ofPortable (String.ofList entry)) = p) :
    (line (Path.ofNames outer) p).length ≤ entry.length := by
  have names := Path.sublist_of_absolutize ho named.isName named.below (read.trans named.path)
  have length := names.length_le
  rw [Path.ofPortable, Path.toList_forwardSlashes, List.length_map, String.toList_ofList] at length
  rwa [named.line_eq ho]

end Named

/-- Where numbers do not grow and their sum does not shrink, each stays. -/
theorem eq_of_sum_le {α : Type} {l : List α} {f g : α → Nat} (le : ∀ a ∈ l, f a ≤ g a)
    (sum : (l.map g).sum ≤ (l.map f).sum) : ∀ a ∈ l, f a = g a := by
  induction l with
  | nil => exact nofun
  | cons a rest ih =>
    have here := le a List.mem_cons_self
    have later : (rest.map f).sum ≤ (rest.map g).sum :=
      List.sum_le_sum fun b mem => le b (.tail _ mem)
    rw [List.map_cons, List.sum_cons, List.map_cons, List.sum_cons] at sum
    rw [List.forall_mem_cons]
    exact ⟨by omega, ih (fun b mem => le b (.tail _ mem)) (by omega)⟩

/-- The characters of the entries of all lines, counted line by line. -/
theorem length_entries {α : Type} (l : List α) (text : α → List Char) :
    (l.map fun a => (entries (text a)).flatten.length).sum =
      ((l.flatMap fun a => entries (text a)).map List.length).sum := by
  induction l with
  | nil => rfl
  | cons a rest ih =>
    rw [List.map_cons, List.sum_cons, ih, List.flatMap_cons, List.map_append, List.sum_append,
      List.length_flatten]

/-- A log is read back as the paths that were written exactly if all its lines are legible. Reading
loses nothing else: no path can be read from a text that is shorter than its line, so that what is
lost from one line cannot be made up for by another. -/
theorem read_render_iff {base : Path} {written : List Path} {outer : List String}
    (ho : ∀ name ∈ outer, Path.IsName name) (hb : base = Path.ofNames outer)
    (named : ∀ p ∈ written, ∃ names, Named outer p names) :
    read base (render base written) = written ↔ ∀ p ∈ written, Legible (line base p) := by
  subst hb
  rw [read_render]
  constructor
  · intro back
    have shorter : ∀ p ∈ written, (entries (line (Path.ofNames outer) p)).flatten.length ≤
        (line (Path.ofNames outer) p).length := fun p _ => (entries_sublist _).length_le
    have longer : ∀ entry ∈ written.flatMap fun p => entries (line (Path.ofNames outer) p),
        (line (Path.ofNames outer) (Path.absolutize (Path.ofNames outer)
          (.ofPortable (String.ofList entry)))).length ≤ entry.length := by
      intro entry mem
      obtain ⟨names, known⟩ := named _ (back ▸ List.mem_map_of_mem mem)
      exact known.length_le ho rfl
    have sum := List.sum_le_sum longer
    rw [← length_entries] at sum
    have lines := congrArg (fun paths : List Path =>
      (paths.map fun p => (line (Path.ofNames outer) p).length).sum) back
    simp only [List.map_map, Function.comp_def] at lines
    rw [lines] at sum
    intro p mem
    exact legible_of_entries ((entries_sublist _).eq_of_length (eq_of_sum_le shorter sum p mem))
  · intro legible
    have alone : (written.flatMap fun p => entries (line (Path.ofNames outer) p)) =
        written.map (line (Path.ofNames outer)) := by
      rw [List.map_eq_flatMap]
      refine List.flatMap_congr fun p mem => ?_
      obtain ⟨names, known⟩ := named p mem
      exact entries_of_legible (legible p mem) (known.line_ne_nil ho)
    have back : written.map ((fun entry => Path.absolutize (Path.ofNames outer)
        (.ofPortable (String.ofList entry))) ∘ line (Path.ofNames outer)) = written.map id := by
      refine List.map_congr_left fun p mem => ?_
      obtain ⟨names, known⟩ := named p mem
      rw [Function.comp_apply, known.absolutize_line ho, id]
    rw [alone, List.map_map, back, List.map_id]

/-- A blank in front of a name is lost, and the log names another file. -/
example : read ⟨"/"⟩ (render ⟨"/"⟩ [⟨"/ a"⟩]) = [⟨"/a"⟩] := by
  decide

end FileLog

end Emitter
