import Emitter.Proofs.Path.Parent

/-! Another last name, for a path however it is written. The parent of a path with a last name has
no slashes or dots at its end (`exists_parent?`), and a name that is joined to a path has that path,
without those, as its parent (`parent?_join`). So a name in the place of the last one is the last
name (`fileName?_withFileName`) and has the same parent (`parent?_withFileName`). -/

namespace Emitter.Path

/-! ## What a path begins with -/

section

variable {p q : Path}

theorem start_of_slash {rest : List Char} (text : p.text.toList = '/' :: rest) :
    p.start = [.root] := by
  rw [start, isAbsolute, text]
  rfl

theorem start_of_dot {rest : List Char} (text : p.text.toList = '.' :: rest)
    (ends : rest = [] ∨ ∃ more, rest = '/' :: more) : p.start = [.current] := by
  rw [start, isAbsolute, pieces, text]
  rcases ends with rfl | ⟨more, rfl⟩
  · rfl
  · simp [Text.split]

/-- The start shows in the first character and the first piece. -/
theorem start_congr (absolute : p.isAbsolute = q.isAbsolute)
    (first : p.pieces.head? = q.pieces.head?) : p.start = q.start := by
  rw [start, start, absolute, first]

theorem length_head (p : Path) : p.head.1.length = p.start.length := by
  rcases start_cases p with ⟨start, _, -, split⟩ | ⟨start, _, -, split, -⟩ | ⟨start, split⟩ <;>
    simp [start, split]

/-- Paths of one start differ in the text after it. -/
theorem head_eq (start : p.start = q.start) {rest : List Char}
    (text : p.text.toList = q.head.1 ++ rest) : p.head = (q.head.1, rest) := by
  rw [head, start, text, ← length_head, List.splitAt_eq, List.take_left, List.drop_left]

theorem steps_eq_head (p : Path) : p.steps = stepsOf p.head.2 := by
  rcases start_cases p with ⟨-, rest, text, split⟩ | ⟨-, rest, text, split, slash⟩ | ⟨-, split⟩
  · rw [steps, text, split, stepsOf_slash]
  · rw [steps, text, split]
    rcases slash with rfl | ⟨more, rfl⟩
    · rfl
    · rw [stepsOf_slash]
      exact stepsOf_append ['.'] more
  · rw [split, steps]

theorem relative_of_start (h : p.start = []) : p.isAbsolute = false := by
  rcases absolute : p.isAbsolute with _ | _
  · rfl
  · simp [start, absolute] at h

theorem relative_of_beginning (begins : p.text.toList <+: q.text.toList)
    (relative : q.isAbsolute = false) : p.isAbsolute = false := by
  obtain ⟨rest, text⟩ := begins
  rw [isAbsolute, ← text] at relative
  rcases chars : p.text.toList with _ | ⟨c, more⟩
  · rw [isAbsolute, chars]
    rfl
  · rw [chars] at relative
    rw [isAbsolute, chars]
    exact relative

end

/-- The first pieces after the start make a path of the same start. -/
theorem start_beginning {p q : Path} {pieces : List (List Char)}
    (begins : pieces <+: Text.split '/' p.head.2)
    (text : q.text.toList = p.head.1 ++ Text.join '/' pieces) : q.start = p.start := by
  obtain ⟨rest, whole⟩ := begins
  -- The pieces come back from the text, unless there are none: joined, they are as good as an
  -- empty one.
  have first : pieces = [] ∨ (Text.split '/' (Text.join '/' pieces)).head? =
      (Text.split '/' p.head.2).head? := by
    rcases pieces with _ | ⟨piece, more⟩
    · exact .inl rfl
    · right
      rw [Text.split_join (List.cons_ne_nil _ _) fun piece mem =>
        Text.not_mem_of_mem_split (whole ▸ List.mem_append_left rest mem), ← whole]
      rfl
  have begins : Text.join '/' pieces <+: p.head.2 := by
    rw [← Text.join_split '/' p.head.2, ← whole]
    exact Text.join_prefix
  -- A root needs no more than its slash, a dot that nothing but a slash comes after it, and without
  -- either the first piece has to be the same.
  rcases start_cases p with ⟨start, _, -, split⟩ | ⟨start, _, -, split, slash⟩ | ⟨start, split⟩
  · rw [split] at text
    rw [start, start_of_slash text]
  · rw [split] at text first
    rw [start]
    refine start_of_dot text ?_
    rcases first with rfl | same
    · exact .inl rfl
    · refine of_split_head_nil (same.trans ?_)
      rcases slash with rfl | ⟨_, rfl⟩ <;> simp [Text.split]
  · rw [split] at text first begins
    rcases first with rfl | same
    · rw [start, Path.start, isAbsolute, Path.pieces, text]
      rfl
    · have relative := relative_of_start start
      refine start_congr ?_ ?_
      · rw [relative_of_beginning (by rwa [text]) relative, relative]
      · rw [Path.pieces, text]
        exact same

/-! ## The parent -/

theorem dropTrivial_begins (pieces : List (List Char)) : dropTrivial pieces <+: pieces :=
  List.rdropWhile_prefix isTrivial pieces

theorem dropTrivial_dropTrivial (pieces : List (List Char)) :
    dropTrivial (dropTrivial pieces) = dropTrivial pieces :=
  List.rdropWhile_idempotent isTrivial pieces

theorem dropTrivial_concat (pieces : List (List Char)) {piece : List Char}
    (h : isTrivial piece = false) : dropTrivial (pieces ++ [piece]) = pieces ++ [piece] :=
  List.rdropWhile_concat_neg isTrivial pieces piece (by simp [h])

theorem dropTrivial_concat_nil (pieces : List (List Char)) :
    dropTrivial (pieces ++ [[]]) = dropTrivial pieces :=
  List.rdropWhile_concat_pos isTrivial pieces [] rfl

theorem join_dropTrivial_split {pieces : List (List Char)}
    (h : ∀ piece ∈ dropTrivial pieces, '/' ∉ piece) :
    Text.join '/' (dropTrivial (Text.split '/' (Text.join '/' (dropTrivial pieces)))) =
      Text.join '/' (dropTrivial pieces) := by
  by_cases nothing : dropTrivial pieces = []
  · rw [nothing]
    rfl
  · rw [Text.split_join nothing h, dropTrivial_dropTrivial]

/-- Without slashes and dots at the end, what the path begins with apart. -/
def trim (p : Path) : Path :=
  ⟨String.ofList (p.head.1 ++ Text.join '/' (dropTrivial (Text.split '/' p.head.2)))⟩

section

variable {p : Path} {name : String}

/-- The last name is the last step. -/
theorem steps_of_fileName? (named : p.fileName? = some name) :
    ∃ before, p.steps = before ++ [.name name] := by
  have last : p.components.getLast? = some (.name name) := by
    unfold fileName? at named
    split at named
    · next same => rw [same, Option.some.inj named]
    · cases named
  rcases List.eq_nil_or_concat' p.steps with nothing | ⟨before, step, ends⟩
  · rw [components_eq, nothing, List.append_nil] at last
    rcases start_cases p with ⟨start, -⟩ | ⟨start, -⟩ | ⟨start, -⟩ <;> simp [start] at last
  · rw [components_eq, ends, ← List.append_assoc, List.getLast?_concat] at last
    exact ⟨before, by rw [ends, Option.some.inj last]⟩

theorem isName_of_fileName? (named : p.fileName? = some name) : IsName name := by
  obtain ⟨before, steps⟩ := steps_of_fileName? named
  have mem : .name name ∈ stepsOf p.text.toList := by
    rw [← Path.steps, steps]
    simp
  rcases of_mem_stepsOf mem with parent | ⟨other, same, valid⟩
  · cases parent
  · rwa [Component.name.inj same]

/-- A path with a last name has a parent, which is trimmed. -/
theorem exists_parent? (named : p.fileName? = some name) :
    ∃ q, p.parent? = some q ∧ q.trim = q := by
  have solid : dropTrivial (Text.split '/' p.head.2) ≠ [] := by
    intro nothing
    have trivial := List.rdropWhile_eq_nil_iff.1 nothing
    obtain ⟨before, steps⟩ := steps_of_fileName? named
    rw [steps_eq_head, stepsOf, List.filter_eq_nil_iff.2 (by simpa using trivial)] at steps
    simp at steps
  refine ⟨_, by rw [parent?_eq, if_neg solid], ?_⟩
  generalize inner : (dropTrivial (Text.split '/' p.head.2)).dropLast = pieces
  have begins : dropTrivial pieces <+: Text.split '/' p.head.2 := by
    rw [← inner]
    exact (dropTrivial_begins _).trans ((List.dropLast_prefix _).trans (dropTrivial_begins _))
  have text : (⟨String.ofList (p.head.1 ++ Text.join '/' (dropTrivial pieces))⟩ :
      Path).text.toList = p.head.1 ++ Text.join '/' (dropTrivial pieces) := String.toList_ofList
  rw [trim, head_eq (start_beginning begins text) text, join_dropTrivial_split fun piece mem => ?_]
  exact Text.not_mem_of_mem_split (begins.subset mem)

/-! ## Joining a name -/

/-- A slash comes before the name if there is none. -/
theorem text_join_cases (q : Path) (h : IsName name) :
    ((q.text.toList = [] ∨ ∃ front, q.text.toList = front ++ ['/']) ∧
        (q.join ⟨name⟩).text.toList = q.text.toList ++ name.toList) ∨
      q.text.toList ≠ [] ∧ (q.join ⟨name⟩).text.toList = q.text.toList ++ '/' :: name.toList := by
  rw [text_join (isAbsolute_of_noSlash h.noSlash)]
  rcases List.eq_nil_or_concat' q.text.toList with nothing | ⟨front, last, ends⟩
  · exact .inl ⟨.inl nothing, by simp [nothing]⟩
  · by_cases slash : last = '/'
    · exact .inl ⟨.inr ⟨front, by rw [ends, slash]⟩, by simp [ends, slash]⟩
    · exact .inr ⟨by simp [ends], by simp [ends, slash]⟩

theorem head?_split_append (a b : List Char) :
    (Text.split '/' (a ++ '/' :: b)).head? = (Text.split '/' a).head? := by
  rw [Text.split_append]
  exact List.head?_append_of_ne_nil _ (Text.split_ne_nil '/' a)

theorem start_join (q : Path) (h : IsName name) : (q.join ⟨name⟩).start = q.start := by
  rcases text_join_cases q h with ⟨nothing | ⟨front, slash⟩, text⟩ | ⟨nonempty, text⟩
  · rw [nothing, List.nil_append] at text
    have relative : (q.join ⟨name⟩).isAbsolute = false := by
      rw [isAbsolute, text]
      exact isAbsolute_of_noSlash h.noSlash
    rw [start, start, relative, pieces, pieces, isAbsolute, nothing, text,
      Text.split_eq_singleton h.noSlash]
    simp [h.ne_dot, Text.split]
  · rw [slash, List.append_assoc, List.singleton_append] at text
    refine start_congr ?_ ?_
    · simp [isAbsolute, text, slash, List.head?_append]
    · rw [pieces, pieces, text, slash, head?_split_append, head?_split_append]
  · refine start_congr ?_ ?_
    · rw [isAbsolute, isAbsolute, text, List.head?_append_of_ne_nil _ nonempty]
    · rw [pieces, pieces, text, head?_split_append]

/-- The name is a piece of its own. -/
theorem parent?_eq_of_head {p : Path} {first rest : List Char} {pieces : List (List Char)}
    (head : p.head = (first, rest)) (cut : Text.split '/' rest = pieces ++ [name.toList])
    (h : IsName name) :
    p.parent? = some ⟨String.ofList (first ++ Text.join '/' (dropTrivial pieces))⟩ := by
  have solid : isTrivial name.toList = false := by simp [isTrivial, h.ne_empty, h.ne_dot]
  rw [parent?_eq, head, cut, dropTrivial_concat pieces solid, if_neg (by simp),
    List.dropLast_concat]

/-- Without what it ends with, a path is the parent of the names that are joined to it. -/
theorem parent?_join (q : Path) (h : IsName name) : (q.join ⟨name⟩).parent? = some q.trim := by
  have start := start_join q h
  have single := Text.split_eq_singleton h.noSlash
  rcases text_join_cases q h with ⟨ends, text⟩ | ⟨-, text⟩
  · rw [text_eq_head q, List.append_assoc] at text
    have head := head_eq start text
    -- The slash at the end is the root, or it stands behind other pieces and brings an empty one.
    rcases List.eq_nil_or_concat' q.head.2 with nothing | ⟨front, last, after⟩
    · rw [nothing, List.nil_append] at head
      rw [@parent?_eq_of_head name _ _ _ [] head single h, trim, nothing]
      rfl
    · have slash : last = '/' := by
        rcases ends with none | ⟨_, slash⟩
        · simp [text_eq_head q, after] at none
        · rw [text_eq_head q, after, ← List.append_assoc] at slash
          exact List.singleton_inj.1 (List.append_inj' slash rfl).2
      rw [after, slash, List.append_assoc, List.singleton_append] at head
      have cut := @Text.split_append '/' front name.toList
      rw [single] at cut
      rw [parent?_eq_of_head head cut h, trim, after, slash, Text.split_append, Text.split,
        dropTrivial_concat_nil]
  · rw [text_eq_head q, List.append_assoc] at text
    have cut := @Text.split_append '/' q.head.2 name.toList
    rw [single] at cut
    rw [parent?_eq_of_head (head_eq start text) cut h, trim]

theorem fileName?_join (q : Path) (h : IsName name) : (q.join ⟨name⟩).fileName? = some name := by
  have last : (q.join ⟨name⟩).components.getLast? = some (.name name) := by
    have step : (⟨name⟩ : Path).steps = [.name name] := by
      simpa [steps, Text.join] using @stepsOf_join [name] (by simpa using h)
    rw [components_eq, steps_join q (isAbsolute_of_noSlash h.noSlash), step, ← List.append_assoc,
      List.getLast?_concat]
  rw [fileName?, last]

end

/-! ## Another last name -/

theorem withFileName_eq {p q : Path} {name : String} (named : p.fileName? = some name)
    (parent : p.parent? = some q) (other : String) : p.withFileName other = q.join ⟨other⟩ := by
  rw [withFileName, named, parent]

section

variable {p : Path} {name : String} (named : p.fileName? = some name) {other : String}
  (h : IsName other)
include named h

theorem fileName?_withFileName : (p.withFileName other).fileName? = some other := by
  obtain ⟨q, parent, -⟩ := exists_parent? named
  rw [withFileName_eq named parent]
  exact fileName?_join q h

theorem parent?_withFileName : (p.withFileName other).parent? = p.parent? := by
  obtain ⟨q, parent, trimmed⟩ := exists_parent? named
  rw [withFileName_eq named parent, parent?_join q h, trimmed, parent]

/-- Of two names in the place of the last one the second stays. -/
theorem withFileName_withFileName (more : String) :
    (p.withFileName other).withFileName more = p.withFileName more := by
  obtain ⟨q, parent, -⟩ := exists_parent? named
  have same := (parent?_withFileName named h).trans parent
  rw [withFileName_eq (fileName?_withFileName named h) same, withFileName_eq named parent]

end

end Emitter.Path
