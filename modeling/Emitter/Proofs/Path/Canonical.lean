import Emitter.Proofs.Path.Names

/-! Normal forms are canonical. What folding leaves of components is reduced (`isReduced_normal`), a
path made of reduced components has these components, and they fold to themselves. So the components
of a normal form are the folded components of the path (`components_normalize`), and two paths have
one normal form exactly if their components fold alike, however the paths are written. -/

namespace Emitter.Path

/-- A component that is neither the root nor a dot. -/
def IsStep (c : Component) : Prop := c = .parent ∨ ∃ name, c = .name name ∧ IsName name

/-- A step stands for one piece of a text. -/
theorem IsStep.piece {c : Component} (h : IsStep c) :
    '/' ∉ c.text.toList ∧ isTrivial c.text.toList = false ∧ component c.text.toList = c := by
  rcases h with rfl | ⟨name, rfl, valid⟩
  · decide
  · refine ⟨valid.noSlash, ?_, ?_⟩
    · simp [Component.text, isTrivial, valid.ne_empty, valid.ne_dot]
    · simp [Component.text, component, valid.ne_dots]

theorem IsStep.ne_nil {c : Component} (h : IsStep c) : c.text.toList ≠ [] := by
  intro nothing
  have trivial := h.piece.2.1
  rw [nothing] at trivial
  cases trivial

/-! ## Relative paths -/

section

variable {steps : List Component} (h : ∀ c ∈ steps, IsStep c)
include h

/-- A slash stands between each two steps. -/
theorem text_ofComponents_steps :
    (ofComponents steps).text.toList = Text.join '/' (steps.map (·.text.toList)) := by
  induction steps using List.reverseRecOn with
  | nil => rfl
  | append_singleton steps c ih =>
    have here := h c (by simp)
    have before := ih fun c mem => h c (by simp [mem])
    have joined : ofComponents (steps ++ [c]) = (ofComponents steps).join ⟨c.text⟩ := by
      simp [ofComponents]
    rw [joined, text_join (isAbsolute_of_noSlash here.piece.1), before, List.map_append,
      List.map_singleton, Text.join_concat]
    rcases List.eq_nil_or_concat' steps with rfl | ⟨init, last, rfl⟩
    · rfl
    · have solid := (h last (by simp)).piece.1
      have nonempty := (h last (by simp)).ne_nil
      have noSlash : last.text.toList.getLast nonempty ≠ '/' := fun slash =>
        solid (slash ▸ List.getLast_mem nonempty)
      rw [List.map_append, List.map_singleton, Text.join_concat, List.getLast?_append,
        List.getLast?_eq_some_getLast nonempty]
      simp [noSlash]

theorem pieces_ofComponents (nonempty : steps ≠ []) :
    (ofComponents steps).pieces = steps.map (·.text.toList) := by
  rw [pieces, text_ofComponents_steps h]
  refine Text.split_join (by simpa using nonempty) fun piece mem => ?_
  obtain ⟨c, known, rfl⟩ := List.mem_map.1 mem
  exact (h c known).piece.1

theorem isAbsolute_ofComponents : (ofComponents steps).isAbsolute = false := by
  rcases steps with _ | ⟨first, rest⟩
  · rfl
  obtain ⟨c, more, chars⟩ := List.exists_cons_of_ne_nil (h first List.mem_cons_self).ne_nil
  have noSlash := (h first List.mem_cons_self).piece.1
  rw [chars, List.mem_cons, not_or] at noSlash
  rw [isAbsolute, text_ofComponents_steps h]
  rcases rest with _ | ⟨next, rest⟩ <;> simp [Text.join, chars, Ne.symm noSlash.1]

theorem start_ofComponents : (ofComponents steps).start = [] := by
  rw [start, isAbsolute_ofComponents h, if_neg Bool.false_ne_true]
  rcases steps with _ | ⟨first, rest⟩
  · rfl
  rw [pieces_ofComponents h (List.cons_ne_nil first rest), if_neg]
  intro same
  rw [List.map_cons, List.head?_cons, Option.some.injEq] at same
  have trivial := (h first List.mem_cons_self).piece.2.1
  rw [same] at trivial
  cases trivial

/-- Steps are read back as they are. -/
theorem steps_ofComponents : (ofComponents steps).steps = steps := by
  rcases steps with _ | ⟨first, rest⟩
  · rfl
  have pieces := pieces_ofComponents h (List.cons_ne_nil first rest)
  have solid : ∀ piece ∈ (first :: rest).map (·.text.toList), !isTrivial piece := by
    intro piece mem
    obtain ⟨c, known, rfl⟩ := List.mem_map.1 mem
    rw [(h c known).piece.2.1]
    rfl
  rw [Path.pieces] at pieces
  rw [Path.steps, stepsOf, pieces, List.filter_eq_self.2 solid, List.map_map]
  refine (List.map_congr_left fun c mem => ?_).trans (List.map_id _)
  exact (h c mem).piece.2.2

theorem components_ofComponents : (ofComponents steps).components = steps := by
  rw [components_eq, start_ofComponents h, steps_ofComponents h, List.nil_append]

end

/-! ## All paths -/

theorem normal_eq_ite (components : List Component) :
    normal components = if fold components = [] then [.current] else fold components := by
  rcases folded : fold components with _ | ⟨first, rest⟩ <;> rw [normal, folded] <;> rfl

/-- Steps up, then down through names. -/
def upDown (ups : Nat) (names : List String) : List Component :=
  List.replicate ups .parent ++ names.map .name

theorem isStep_upDown (ups : Nat) {names : List String} (h : ∀ name ∈ names, IsName name) :
    ∀ c ∈ upDown ups names, IsStep c := by
  intro c mem
  rcases List.mem_append.1 mem with up | down
  · exact .inl (List.eq_of_mem_replicate up)
  · obtain ⟨name, known, rfl⟩ := List.mem_map.1 down
    exact .inr ⟨name, rfl, h name known⟩

/-- Going up takes back the last name, and stays if there is none. -/
theorem onto_upDown_parent (ups : Nat) (names : List String) :
    Component.onto (upDown ups names).reverse .parent =
      (if names = [] then upDown (ups + 1) [] else upDown ups names.dropLast).reverse := by
  rcases List.eq_nil_or_concat' names with rfl | ⟨init, last, rfl⟩
  · have stack (n : Nat) : (upDown n []).reverse = List.replicate n .parent := by simp [upDown]
    rw [if_pos rfl, stack, stack, List.replicate_succ]
    cases ups <;> rfl
  · simp [upDown, Component.onto]

/-- What is left of steps goes up, then down. -/
theorem foldl_onto_steps {steps : List Component} (h : ∀ c ∈ steps, IsStep c) :
    ∃ ups names, (∀ name ∈ names, IsName name) ∧
      steps.foldl Component.onto [] = (upDown ups names).reverse := by
  induction steps using List.reverseRecOn with
  | nil => exact ⟨0, [], nofun, rfl⟩
  | append_singleton steps c ih =>
    obtain ⟨ups, names, valid, before⟩ := ih fun c mem => h c (List.mem_append_left _ mem)
    rw [List.foldl_concat, before]
    rcases h c (by simp) with rfl | ⟨name, rfl, here⟩
    · rw [onto_upDown_parent]
      split
      · exact ⟨ups + 1, [], nofun, rfl⟩
      · exact ⟨ups, names.dropLast, fun name mem => valid name (List.dropLast_subset _ mem), rfl⟩
    · exact ⟨ups, names ++ [name], isName_concat valid here, by simp [upDown, Component.onto]⟩

/-- The dot that a path may begin with is nothing to fold. -/
theorem foldl_components {p : Path} (relative : p.isAbsolute = false) :
    p.components.foldl Component.onto [] = p.steps.foldl Component.onto [] := by
  have start : p.start = [] ∨ p.start = [.current] := by
    rw [Path.start, relative, if_neg Bool.false_ne_true]
    split
    · exact .inr rfl
    · exact .inl rfl
  rw [components_eq]
  rcases start with start | start <;> rw [start] <;> rfl

theorem fold_relative {p : Path} (relative : p.isAbsolute = false) :
    ∃ ups names, (∀ name ∈ names, IsName name) ∧ fold p.components = upDown ups names := by
  obtain ⟨ups, names, valid, folded⟩ :=
    foldl_onto_steps fun c (mem : c ∈ p.steps) => of_mem_stepsOf mem
  refine ⟨ups, names, valid, ?_⟩
  rw [fold, foldl_components relative, folded, List.reverse_reverse]

/-- Names are only put on top. -/
theorem foldl_onto_names (stack : List Component) (names : List String) :
    (names.map .name).foldl Component.onto stack = (names.map .name).reverse ++ stack := by
  induction names using List.reverseRecOn with
  | nil => rfl
  | append_singleton names name ih => simp [ih, Component.onto]

theorem foldl_onto_parents (ups : Nat) :
    (List.replicate ups .parent).foldl Component.onto [] = List.replicate ups .parent := by
  induction ups with
  | zero => rfl
  | succ ups ih =>
    rw [List.replicate_succ', List.foldl_concat, ih, ← List.replicate_succ', List.replicate_succ]
    cases ups <;> rfl

/-- The components of normal forms: names below the root, steps up and then down, or a dot. -/
inductive IsReduced : Bool → List Component → Prop
  | absolute {names : List String} (valid : ∀ name ∈ names, IsName name) :
      IsReduced true (.root :: names.map .name)
  | relative {ups : Nat} {names : List String} (valid : ∀ name ∈ names, IsName name)
      (moves : upDown ups names ≠ []) : IsReduced false (upDown ups names)
  | current : IsReduced false [.current]

theorem isReduced_normal (p : Path) : IsReduced p.isAbsolute (normal p.components) := by
  rcases absolute : p.isAbsolute with _ | _
  · obtain ⟨ups, names, valid, folded⟩ := fold_relative absolute
    rw [normal_eq_ite, folded]
    split
    · exact .current
    · next moves => exact .relative valid moves
  · rw [normal_components absolute]
    exact .absolute (isName_resolve nofun)

namespace IsReduced

variable {absolute : Bool} {components : List Component} (h : IsReduced absolute components)
include h

theorem isAbsolute_eq : (ofComponents components).isAbsolute = absolute := by
  cases h with
  | absolute valid => exact isAbsolute_ofNames valid
  | relative valid _ => exact isAbsolute_ofComponents (isStep_upDown _ valid)
  | current => rfl

theorem components_eq : (ofComponents components).components = components := by
  cases h with
  | absolute valid => exact components_ofNames valid
  | relative valid _ => exact components_ofComponents (isStep_upDown _ valid)
  | current => rfl

/-- Nothing is left to fold. -/
theorem normal_eq : normal components = components := by
  cases h with
  | @absolute names _ =>
    have folded : fold (.root :: names.map .name) = .root :: names.map .name := by
      show ((names.map .name).foldl Component.onto [.root]).reverse = _
      rw [foldl_onto_names]
      simp
    rw [normal, folded]
  | @relative ups names _ moves =>
    have folded : fold (upDown ups names) = upDown ups names := by
      rw [fold, upDown, List.foldl_append, foldl_onto_parents, foldl_onto_names]
      simp
    rw [normal_eq_ite, folded, if_neg moves]
  | current => rfl

end IsReduced

/-- The components of a normal form are the folded components of the path. -/
theorem components_normalize (p : Path) : p.normalize.components = normal p.components :=
  (isReduced_normal p).components_eq

theorem isAbsolute_normalize (p : Path) : p.normalize.isAbsolute = p.isAbsolute :=
  (isReduced_normal p).isAbsolute_eq

theorem normalize_normalize (p : Path) : p.normalize.normalize = p.normalize := by
  rw [normalize, components_normalize, (isReduced_normal p).normal_eq, ← normalize]

/-- Paths with one normal form are those whose components fold alike. -/
theorem normalize_eq_iff {p q : Path} :
    p.normalize = q.normalize ↔ normal p.components = normal q.components := by
  constructor
  · intro same
    rw [← components_normalize, same, components_normalize]
  · intro same
    rw [normalize, same, normalize]

/-- Normal forms that name the same place are equal. -/
theorem same_normalize {p q : Path} : p.normalize.same q.normalize ↔ p.normalize = q.normalize := by
  rw [same_iff, components_normalize, components_normalize, normalize_eq_iff]

end Emitter.Path
