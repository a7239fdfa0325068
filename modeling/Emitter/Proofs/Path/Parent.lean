import Emitter.Proofs.Path.Names
import Mathlib.Data.List.DropRight

/-! What stands above a path. The parent is a beginning of the path's text, and the pieces after it
are dots and the last name (`parent?_eq_some`); of a list of names it is the names before the last
(`parent?_ofNames`). -/

namespace Emitter.Path

/-- The pieces between slashes that are not empty. -/
def solid (text : List Char) : List (List Char) := (Text.split '/' text).filter (· ≠ [])

theorem solid_append (a b : List Char) : solid (a ++ '/' :: b) = solid a ++ solid b := by
  simp [solid, Text.split_append]

theorem solid_slash (text : List Char) : solid ('/' :: text) = solid text :=
  solid_append [] text

theorem solid_join {pieces : List (List Char)} (h : ∀ piece ∈ pieces, '/' ∉ piece) :
    solid (Text.join '/' pieces) = pieces.filter (· ≠ []) := by
  rcases pieces with _ | ⟨first, rest⟩
  · rfl
  · rw [solid, Text.split_join (by simp) h]

/-- Trivial pieces at the end are dropped, and what is left ends with one that is not. -/
theorem dropTrivial_spec (pieces : List (List Char)) :
    ∃ tail, pieces = dropTrivial pieces ++ tail ∧ (∀ t ∈ tail, isTrivial t = true) ∧
      ∀ init last, dropTrivial pieces = init ++ [last] → isTrivial last = false := by
  refine ⟨pieces.rtakeWhile isTrivial, (List.rdropWhile_append_rtakeWhile ..).symm,
    fun t ht => List.mem_rtakeWhile_imp ht, fun init last ends => ?_⟩
  have kept := List.rdropWhile_last_not isTrivial pieces (by
    show dropTrivial pieces ≠ []
    simp [ends])
  have : pieces.rdropWhile isTrivial = init ++ [last] := ends
  simpa [this] using kept

/-- A text whose first piece is empty is empty or begins with a slash. -/
theorem of_split_head_nil {text : List Char} (h : (Text.split '/' text).head? = some []) :
    text = [] ∨ ∃ more, text = '/' :: more := by
  rcases text with _ | ⟨c, rest⟩
  · exact .inl rfl
  · by_cases slash : c = '/'
    · exact .inr ⟨rest, by rw [slash]⟩
    · rw [Text.split, if_neg slash] at h
      split at h <;> simp at h

/-- What a path begins with, and the text after it. -/
theorem start_cases (p : Path) :
    (p.start = [.root] ∧ ∃ rest, p.text.toList = '/' :: rest ∧ p.head = (['/'], rest)) ∨
      (p.start = [.current] ∧ ∃ rest, p.text.toList = '.' :: rest ∧ p.head = (['.'], rest) ∧
        (rest = [] ∨ ∃ more, rest = '/' :: more)) ∨
      (p.start = [] ∧ p.head = ([], p.text.toList)) := by
  rcases absolute : p.isAbsolute with _ | _
  · by_cases dot : p.pieces.head? = some ['.']
    · have start : p.start = [.current] := by simp [start, absolute, dot]
      rcases text : p.text.toList with _ | ⟨c, rest⟩
      · simp [pieces, text, Text.split] at dot
      · have slash : c ≠ '/' := by
          rintro rfl
          simp [isAbsolute, text] at absolute
        rw [pieces, text, Text.split, if_neg slash] at dot
        rcases cut : Text.split '/' rest with _ | ⟨first, more⟩
        · exact absurd cut (Text.split_ne_nil '/' rest)
        · rw [cut] at dot
          simp only [List.head?_cons, Option.some.injEq, List.cons.injEq] at dot
          obtain ⟨rfl, rfl⟩ := dot
          refine .inr (.inl ⟨start, rest, rfl, by simp [head, start, text], ?_⟩)
          exact of_split_head_nil (by simp [cut])
    · have start : p.start = [] := by simp [start, absolute, dot]
      exact .inr (.inr ⟨start, by simp [head, start]⟩)
  · have start : p.start = [.root] := by simp [start, absolute]
    rcases text : p.text.toList with _ | ⟨c, rest⟩
    · simp [isAbsolute, text] at absolute
    · obtain rfl : c = '/' := by simpa [isAbsolute, text] using absolute
      exact .inl ⟨start, rest, rfl, by simp [head, start, text]⟩

theorem text_eq_head (p : Path) : p.text.toList = p.head.1 ++ p.head.2 := by
  simp [head]

/-- A trivial piece that is not empty is a dot. -/
theorem dots_of_trivial {pieces : List (List Char)} (h : ∀ piece ∈ pieces, isTrivial piece = true) :
    ∀ dot ∈ pieces.filter (· ≠ []), dot = ['.'] := by
  intro dot kept
  obtain ⟨mem, solid⟩ := List.mem_filter.1 kept
  have := h dot mem
  simp_all [isTrivial]

theorem parent?_eq (p : Path) :
    p.parent? =
      if dropTrivial (Text.split '/' p.head.2) = [] then
        if p.start = [.current] then some ⟨""⟩ else none
      else some ⟨String.ofList (p.head.1 ++
        Text.join '/' (dropTrivial (dropTrivial (Text.split '/' p.head.2)).dropLast))⟩ := by
  unfold parent?
  dsimp only
  split
  · next none => rw [if_pos none]
  · next some => rw [if_neg some]

/-- A path's pieces are those of its beginning and some more, where the cut is at a slash. -/
theorem solid_eq_append {p : Path} {outer inner : List (List Char)}
    (cut : Text.split '/' p.head.2 = outer ++ inner)
    (nonempty : inner.filter (· ≠ []) ≠ [])
    (begun : p.head.1 ++ Text.join '/' outer ≠ []) :
    solid p.text.toList =
      solid (p.head.1 ++ Text.join '/' outer) ++ inner.filter (· ≠ []) := by
  have noSlash : ∀ piece ∈ inner, '/' ∉ piece := fun piece h =>
    Text.not_mem_of_mem_split (cut ▸ List.mem_append_right outer h)
  have inner_ne : inner ≠ [] := by
    rintro rfl
    exact nonempty rfl
  have rest : p.head.2 = Text.join '/' (outer ++ inner) := by rw [← cut, Text.join_split]
  rw [text_eq_head, rest]
  by_cases outermost : outer = []
  · rw [outermost, List.nil_append, ← solid_join noSlash]
    rw [outermost, List.nil_append] at rest
    rcases start_cases p with ⟨-, _, -, split⟩ | ⟨-, text, -, split, slash⟩ | ⟨-, split⟩
    · rw [split]
      exact solid_slash _
    · rw [split] at rest ⊢
      rw [← rest]
      rcases slash with rfl | ⟨more, rfl⟩
      · rw [← solid_join noSlash, ← rest] at nonempty
        exact absurd rfl nonempty
      · rw [solid_slash]
        exact solid_append ['.'] more
    · rw [split, outermost] at begun
      exact absurd rfl begun
  · rw [Text.join_append outermost inner_ne, ← List.append_assoc, solid_append,
      solid_join noSlash]

/-- The parent's pieces come first, then dots, then the last name. -/
theorem parent?_eq_some {p q : Path} (h : p.parent? = some q) (nonempty : q.text ≠ "")
    (named : (solid p.text.toList).getLast? ≠ some ['.']) :
    q.text.toList <+: p.text.toList ∧ ∃ dots last,
      solid p.text.toList = solid q.text.toList ++ dots ++ [last] ∧ ∀ dot ∈ dots, dot = ['.'] := by
  obtain ⟨tail, pieces, trivialTail, trivialLast⟩ := dropTrivial_spec (Text.split '/' p.head.2)
  rw [parent?_eq] at h
  rcases List.eq_nil_or_concat' (dropTrivial (Text.split '/' p.head.2)) with none | ⟨init, last, ends⟩
  · rw [if_pos none] at h
    split at h
    · exact absurd (congrArg Path.text (Option.some.inj h)).symm nonempty
    · cases h
  · rw [ends, if_neg (by simp), List.dropLast_concat] at h
    obtain rfl := Option.some.inj h
    obtain ⟨mid, inits, trivialMid, -⟩ := dropTrivial_spec init
    have cut : Text.split '/' p.head.2 = dropTrivial init ++ (mid ++ [last] ++ tail) := by
      rw [pieces, ends]
      nth_rewrite 1 [inits]
      simp
    have lastSolid : last ≠ [] := by
      rintro rfl
      simpa [isTrivial] using trivialLast init [] ends
    have inner : (mid ++ [last] ++ tail).filter (· ≠ []) =
        mid.filter (· ≠ []) ++ [last] ++ tail.filter (· ≠ []) := by
      simp [lastSolid]
    have begun : p.head.1 ++ Text.join '/' (dropTrivial init) ≠ [] := by
      intro nothing
      rw [nothing] at nonempty
      exact nonempty rfl
    have solids := solid_eq_append cut (by rw [inner]; simp) begun
    refine ⟨?_, mid.filter (· ≠ []), last, ?_, dots_of_trivial trivialMid⟩
    · have rest : p.head.2 = Text.join '/' (dropTrivial init ++ (mid ++ [last] ++ tail)) := by
        rw [← cut, Text.join_split]
      rw [text_eq_head p, rest, String.toList_ofList]
      exact (List.prefix_append_right_inj _).2 Text.join_prefix
    · have noTail : tail.filter (· ≠ []) = [] := by
        rcases List.eq_nil_or_concat' (tail.filter (· ≠ [])) with none | ⟨before, dot, dots⟩
        · exact none
        · have : dot = ['.'] := dots_of_trivial trivialTail dot (by rw [dots]; simp)
          refine absurd ?_ named
          rw [solids, inner, dots, this]
          simp [List.getLast?_append, List.getLast?_cons]
      rw [solids, inner, noTail]
      simp

/-! ## Lists of names -/

theorem dropTrivial_names {names : List String} (h : ∀ name ∈ names, IsName name) :
    dropTrivial (names.map String.toList) = names.map String.toList := by
  refine List.rdropWhile_eq_self_iff.2 fun nonempty => ?_
  obtain ⟨name, hn, last⟩ := List.mem_map.1 (List.getLast_mem nonempty)
  rw [← last]
  simp [isTrivial, (h name hn).ne_empty, (h name hn).ne_dot]

theorem head_ofNames {names : List String} (h : ∀ name ∈ names, IsName name) :
    (ofNames names).head = (['/'], Text.join '/' (names.map String.toList)) := by
  have start : (ofNames names).start = [.root] := by
    rw [Path.start, if_pos (isAbsolute_ofNames h)]
  simp [head, start, text_ofNames h]

theorem parent?_ofNames {names : List String} {name : String} (h : ∀ n ∈ names, IsName n)
    (here : IsName name) : (ofNames (names ++ [name])).parent? = some (ofNames names) := by
  have all := isName_concat h here
  have noSlash : ∀ piece ∈ (names ++ [name]).map String.toList, '/' ∉ piece := by
    intro piece hp
    obtain ⟨n, hn, rfl⟩ := List.mem_map.1 hp
    exact (all n hn).noSlash
  rw [parent?_eq, head_ofNames all]
  dsimp only
  rw [Text.split_join (by simp) noSlash, dropTrivial_names all, if_neg (by simp)]
  rw [List.map_append, List.map_singleton, List.dropLast_concat, dropTrivial_names h]
  have text := congrArg String.ofList (text_ofNames h)
  rw [String.ofList_toList] at text
  rw [List.singleton_append, ← text]

theorem fileName?_ofNames {names : List String} {name : String}
    (all : ∀ n ∈ names ++ [name], IsName n) :
    (ofNames (names ++ [name])).fileName? = some name := by
  have last : (ofNames (names ++ [name])).components.getLast? = some (.name name) := by
    simp [components_ofNames all, List.getLast?_cons]
  rw [fileName?, last]

/-- Another last name. -/
theorem withFileName_ofNames {names : List String} {name : String} (h : ∀ n ∈ names, IsName n)
    (here : IsName name) (other : String) :
    (ofNames (names ++ [name])).withFileName other = ofNames (names ++ [other]) := by
  rw [withFileName, fileName?_ofNames (isName_concat h here), parent?_ofNames h here,
    ofNames_concat names other]

end Emitter.Path
