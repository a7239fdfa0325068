import Emitter.Proofs.Path.Canonical
import Mathlib.Data.List.Flatten

/-! Paths below a base. Seen from the base such a path is the names after those of the base
(`text_relative`), and read against the base these are the path again (`absolutize_join`). Whatever
text is read against the base as a path below it, the names of the path stand in the text in this
order (`sublist_of_absolutize`). -/

namespace Emitter.Path

variable {outer names : List String}

/-! ## Up and down -/

/-- What steps leave of names are the first of these and names from the steps, in their order. -/
theorem resolve_cases (outer : List String) (steps : List Component) :
    ∃ kept new, resolve outer steps = kept ++ new ∧ kept <+: outer ∧
      (new.map Component.name).Sublist steps := by
  induction steps using List.reverseRecOn with
  | nil => exact ⟨outer, [], by simp [resolve], List.prefix_rfl, List.nil_sublist _⟩
  | append_singleton steps c ih =>
    obtain ⟨kept, new, resolved, before, after⟩ := ih
    have step : resolve outer (steps ++ [c]) = climb (kept ++ new) c := by
      rw [resolve_append, resolved]
      rfl
    have longer : steps.Sublist (steps ++ [c]) := List.sublist_append_left _ _
    cases c with
    | name name =>
      refine ⟨kept, new ++ [name], ?_, before, ?_⟩
      · rw [step, climb, List.append_assoc]
      · rw [List.map_append]
        exact after.append (List.Sublist.refl _)
    | parent =>
      rcases List.eq_nil_or_concat' new with rfl | ⟨init, last, rfl⟩
      · refine ⟨kept.dropLast, [], ?_, (List.dropLast_prefix kept).trans before, List.nil_sublist _⟩
        rw [step, climb, List.append_nil, List.append_nil]
      · refine ⟨kept, init, ?_, before, ?_⟩
        · rw [step, climb, ← List.append_assoc, List.dropLast_concat]
        · rw [List.map_append] at after
          exact ((List.sublist_append_left _ _).trans after).trans longer
    | root => exact ⟨kept, new, step, before, after.trans longer⟩
    | current => exact ⟨kept, new, step, before, after.trans longer⟩

/-- The names beyond the depth of the first ones come from the steps. -/
theorem drop_resolve_sublist (outer : List String) (steps : List Component) :
    (((resolve outer steps).drop outer.length).map Component.name).Sublist steps := by
  obtain ⟨kept, new, resolved, before, after⟩ := resolve_cases outer steps
  have depth := before.length_le
  rw [resolved, List.drop_append, List.drop_eq_nil_of_le depth, List.nil_append]
  exact ((List.drop_sublist _ new).map _).trans after

theorem resolve_steps_ofNames (h : ∀ name ∈ outer, IsName name) :
    resolve [] (ofNames outer).steps = outer := by
  rw [steps_ofNames h, resolve_names, List.nil_append]

/-- The names of a path that is read against a base, beyond the depth of the base, come from the
path. -/
theorem absolutize_cases (h : ∀ name ∈ outer, IsName name) (p : Path) :
    ∃ all, absolutize (ofNames outer) p = ofNames all ∧ (∀ name ∈ all, IsName name) ∧
      ((all.drop outer.length).map Component.name).Sublist p.steps := by
  refine ⟨_, absolutize_eq (isAbsolute_ofNames h), isName_resolve ?_, ?_⟩
  · split
    · exact nofun
    · exact isName_resolve nofun
  · split
    · exact ((List.drop_sublist _ _).map _).trans (drop_resolve_sublist [] p.steps)
    · rw [resolve_steps_ofNames h]
      exact drop_resolve_sublist outer p.steps

/-! ## Down from the base -/

theorem way_append (source rest : List Component) : way source (source ++ rest) = rest := by
  induction source with
  | nil => simp [way]
  | cons c source ih => rw [List.cons_append, way, if_pos rfl, ih]

theorem text_ofComponents_names (h : ∀ name ∈ names, IsName name) :
    (ofComponents (names.map .name)).text.toList = Text.join '/' (names.map String.toList) := by
  have steps : ∀ c ∈ names.map Component.name, IsStep c := by
    intro c mem
    obtain ⟨name, known, rfl⟩ := List.mem_map.1 mem
    exact .inr ⟨name, rfl, h name known⟩
  rw [text_ofComponents_steps steps, List.map_map]
  rfl

section Below

variable (ho : ∀ name ∈ outer, IsName name) (h : ∀ name ∈ names, IsName name) (below : names ≠ [])
include ho h below

/-- From the base, a path below it is the names after those of the base. -/
theorem text_relative : (relative (ofNames outer) (ofNames (outer ++ names))).text.toList =
    Text.join '/' (names.map String.toList) := by
  have all : ∀ name ∈ outer ++ names, IsName name := List.forall_mem_append.2 ⟨ho, h⟩
  have normal : ∀ {l : List String}, (∀ name ∈ l, IsName name) →
      (ofNames l).normalize.components = .root :: l.map .name := by
    intro l hl
    rw [normalize_eq (isAbsolute_ofNames hl), resolve_steps_ofNames hl, components_ofNames hl]
  have way_eq : way (.root :: outer.map .name) (.root :: (outer ++ names).map .name) =
      names.map .name := by
    rw [List.map_append]
    exact way_append (.root :: outer.map .name) _
  rw [relative, normal ho, normal all, if_neg (by simp), way_eq]
  split
  · next nothing => exact absurd (List.map_eq_nil_iff.1 nothing) below
  · exact text_ofComponents_names h

omit ho in
theorem head?_join_names : (Text.join '/' (names.map String.toList)).head? ≠ some '/' := by
  obtain ⟨first, rest, rfl⟩ := List.exists_cons_of_ne_nil below
  have here := h first List.mem_cons_self
  obtain ⟨c, more, chars⟩ := List.exists_cons_of_ne_nil here.ne_empty
  have noSlash : '/' ≠ c := by
    have := here.noSlash
    simp [chars] at this
    exact this.1
  rcases rest with _ | ⟨next, rest⟩ <;> simp [Text.join, chars, Ne.symm noSlash]

/-- Read against the base, the names are the path. -/
theorem absolutize_join : absolutize (ofNames outer)
    ⟨String.ofList (Text.join '/' (names.map String.toList))⟩ = ofNames (outer ++ names) := by
  have relative : Path.isAbsolute ⟨String.ofList (Text.join '/' (names.map String.toList))⟩ =
      false := by
    simpa [isAbsolute] using head?_join_names h below
  rw [absolutize_eq (isAbsolute_ofNames ho), relative, if_neg Bool.false_ne_true,
    resolve_steps_ofNames ho, steps, String.toList_ofList, stepsOf_join h, resolve_names]

/-- Whatever is read against the base as a path below it has the names of the path in it, and the
slashes between them. -/
theorem sublist_of_absolutize {p : Path}
    (read : absolutize (ofNames outer) p = ofNames (outer ++ names)) :
    (Text.join '/' (names.map String.toList)).Sublist p.text.toList := by
  obtain ⟨all, read', valid, steps⟩ := absolutize_cases ho p
  have all_eq : all = outer ++ names :=
    (ofNames_inj valid (List.forall_mem_append.2 ⟨ho, h⟩)).1 (by rw [same_iff, ← read, read'])
  rw [all_eq, List.drop_left] at steps
  let slashed (c : Component) : List Char := '/' :: c.text.toList
  have down : (names.map Component.name).flatMap slashed =
      '/' :: Text.join '/' (names.map String.toList) := by
    rw [Text.cons_join (by simpa using below), List.flatMap_map, List.flatMap_map]
    rfl
  have through : p.steps.flatMap slashed =
      (p.pieces.filter (!isTrivial ·)).flatMap ('/' :: ·) := by
    rw [Path.steps, stepsOf, List.flatMap_map]
    refine List.flatMap_congr fun piece _ => ?_
    by_cases dots : piece = ['.', '.'] <;> simp [slashed, component, dots, Component.text]
  have whole : p.pieces.flatMap ('/' :: ·) = '/' :: p.text.toList := by
    rw [pieces, ← Text.cons_join (Text.split_ne_nil _ _), Text.join_split]
  rw [← List.cons_sublist_cons (a := '/'), ← down, ← whole]
  refine (steps.flatMap slashed).trans ?_
  rw [through]
  exact List.filter_sublist.flatMap _

end Below

/-! ## Slashes of either kind -/

theorem toList_forwardSlashes (text : String) : (forwardSlashes text).toList =
    text.toList.map fun c => if c = '\\' then '/' else c := by
  simp [forwardSlashes]

theorem backslash_not_mem (text : String) : '\\' ∉ (forwardSlashes text).toList := by
  rw [toList_forwardSlashes]
  intro mem
  obtain ⟨c, -, same⟩ := List.mem_map.1 mem
  split at same
  · cases same
  · next other => exact other same

theorem forwardSlashes_eq {text : String} (h : '\\' ∉ text.toList) :
    forwardSlashes text = text := by
  have same : text.toList.map (fun c => if c = '\\' then '/' else c) = text.toList.map id :=
    List.map_congr_left fun c mem => if_neg (by rintro rfl; exact h mem)
  rw [forwardSlashes, same, List.map_id, String.ofList_toList]

/-- A normal path has no backslash in the names beyond this depth. -/
def PortableBelow (depth : Nat) (p : Path) : Prop :=
  ∀ all : List String, (∀ name ∈ all, IsName name) → p = ofNames all →
    ∀ name ∈ all.drop depth, '\\' ∉ name.toList

theorem mem_of_mem_stepsOf {text : List Char} {name : String} (h : .name name ∈ stepsOf text) :
    ∀ c ∈ name.toList, c ∈ text := by
  obtain ⟨piece, kept, same⟩ := List.mem_map.1 h
  rw [component] at same
  split at same
  · cases same
  · obtain rfl : String.ofList piece = name := Component.name.inj same
    rw [String.toList_ofList]
    exact Text.mem_of_mem_split (List.mem_filter.1 kept).1

/-- What is asked for is portable as far as it goes beyond the base. -/
theorem portableBelow_absolutize (h : ∀ name ∈ outer, IsName name) (text : String) :
    PortableBelow outer.length (absolutize (ofNames outer) (ofPortable text)) := by
  obtain ⟨names, read, valid, steps⟩ := absolutize_cases h (ofPortable text)
  intro all valid' same name mem backslash
  have all_eq : names = all := (ofNames_inj valid valid').1 (by rw [same_iff, ← read, same])
  rw [all_eq] at steps
  have step := steps.subset (List.mem_map_of_mem mem)
  exact backslash_not_mem text (mem_of_mem_stepsOf step _ backslash)

end Emitter.Path
