import Emitter.Proofs.Path.Below

/-! The way from a directory to a target. It goes up to the names that both share and down to the
target (`resolve_way`). So read against the directory it leads to the target
(`absolutize_relative`), and no two places have the same way. -/

namespace Emitter.Path

/-! ## Up and down -/

/-- As many steps up as there are names lead back. -/
theorem resolve_up (before outer : List String) :
    resolve (before ++ outer) ((outer.map Component.name).map fun _ => .parent) = before := by
  rw [List.map_const', List.length_map]
  induction outer using List.reverseRecOn with
  | nil => exact List.append_nil before
  | append_singleton outer last ih =>
    rw [List.length_append, List.length_singleton, List.replicate_succ, ← List.append_assoc]
    show resolve ((before ++ outer) ++ [last]).dropLast _ = before
    rw [List.dropLast_concat, ih]

theorem nil_way (target : List Component) : way [] target = target := by
  cases target <;> rfl

theorem way_nil (source : List Component) : way source [] = source.map fun _ => .parent := by
  cases source with
  | nil => rfl
  | cons a source => exact List.append_nil _

/-- The way between two lists of names leads from one to the other. -/
theorem resolve_way (before outer names : List String) :
    resolve (before ++ outer) (way (outer.map .name) (names.map .name)) = before ++ names := by
  induction outer generalizing before names with
  | nil => rw [List.append_nil, List.map_nil, nil_way, resolve_names]
  | cons first rest ih =>
    cases names with
    | nil => rw [List.map_nil, way_nil, resolve_up, List.append_nil]
    | cons next names =>
      by_cases same : first = next
      · rw [same, List.map_cons, List.map_cons, way, if_pos rfl]
        have further := ih (before ++ [next]) names
        rwa [List.append_assoc, List.append_assoc] at further
      · have other : Component.name first ≠ .name next := fun h => same (Component.name.inj h)
        rw [List.map_cons, List.map_cons, way, if_neg other, resolve_append, ← List.map_cons,
          ← List.map_cons]
        rw [resolve_up, resolve_names]

/-- Each step on the way goes up or belongs to the target. -/
theorem of_mem_way {source target : List Component} {c : Component} (h : c ∈ way source target) :
    c = .parent ∨ c ∈ target := by
  induction source generalizing target with
  | nil => rw [nil_way] at h; exact .inr h
  | cons a source ih =>
    have up : c ∈ (a :: source).map (fun _ => Component.parent) → c = .parent := by
      intro mem
      obtain ⟨-, -, rfl⟩ := List.mem_map.1 mem
      rfl
    cases target with
    | nil =>
      rw [way_nil] at h
      exact .inl (up h)
    | cons b target =>
      rw [way] at h
      split at h
      · exact (ih h).imp_right (.tail _)
      · exact (List.mem_append.1 h).imp_left up

/-! ## Relative paths -/

/-- The names of an absolute path in normal form. -/
def names (p : Path) : List String := resolve [] p.steps

theorem isName_names (p : Path) : ∀ name ∈ p.names, IsName name := isName_resolve nofun

theorem components_normalize_names {p : Path} (h : p.isAbsolute = true) :
    p.normalize.components = .root :: p.names.map .name := by
  rw [components_normalize, normal_components h, names]

theorem isStep_way (d x : Path) : ∀ c ∈ way (d.names.map .name) (x.names.map .name), IsStep c := by
  intro c mem
  rcases of_mem_way mem with up | down
  · exact .inl up
  · obtain ⟨name, known, rfl⟩ := List.mem_map.1 down
    exact .inr ⟨name, rfl, isName_names x name known⟩

/-- What an absolute path is made of is in its names. -/
theorem mem_of_mem_names {p : Path} {name : String} (h : name ∈ p.names) :
    ∀ c ∈ name.toList, c ∈ p.text.toList := by
  have steps : (p.names.map Component.name).Sublist p.steps := drop_resolve_sublist [] p.steps
  exact mem_of_mem_stepsOf (steps.subset (List.mem_map_of_mem h))

section

variable {d x : Path} (hd : d.isAbsolute = true) (hx : x.isAbsolute = true)
include hd hx

/-- The steps of the relative path are the way between the names of the two. -/
theorem relative_eq :
    relative d x = ⟨"."⟩ ∧ way (d.names.map .name) (x.names.map .name) = [] ∨
      relative d x = ofComponents (way (d.names.map .name) (x.names.map .name)) := by
  rw [relative, components_normalize_names hd, components_normalize_names hx, way, if_pos rfl,
    if_neg (by simp)]
  split
  · next nothing => exact .inl ⟨rfl, nothing⟩
  · exact .inr rfl

theorem isAbsolute_relative : (relative d x).isAbsolute = false := by
  rcases relative_eq hd hx with ⟨here, -⟩ | steps
  · rw [here]
    rfl
  · rw [steps, isAbsolute_ofComponents (isStep_way d x)]

theorem steps_relative :
    (relative d x).steps = way (d.names.map .name) (x.names.map .name) := by
  rcases relative_eq hd hx with ⟨here, nothing⟩ | steps
  · rw [here, nothing]
    rfl
  · rw [steps, steps_ofComponents (isStep_way d x)]

/-- Read against the directory, the relative path is the target. -/
theorem absolutize_relative : absolutize d (relative d x) = x.normalize := by
  have led := resolve_way [] d.names x.names
  rw [absolutize_eq hd, isAbsolute_relative hd hx, if_neg Bool.false_ne_true,
    steps_relative hd hx, normalize_eq hx]
  exact congrArg ofNames led

/-- From one directory, different places have different relative paths. -/
theorem normalize_eq_of_relative {y : Path} (hy : y.isAbsolute = true)
    (same : relative d x = relative d y) : x.normalize = y.normalize := by
  rw [← absolutize_relative hd hx, same, absolutize_relative hd hy]

/-- The relative path has no other backslashes than the target. -/
theorem backslash_not_mem_relative (slashes : '\\' ∉ x.text.toList) :
    '\\' ∉ (relative d x).text.toList := by
  rcases relative_eq hd hx with ⟨here, -⟩ | steps
  · rw [here]
    decide
  · rw [steps, text_ofComponents_steps (isStep_way d x)]
    intro mem
    rcases Text.mem_join mem with slash | ⟨piece, known, mem⟩
    · cases slash
    · obtain ⟨c, step, rfl⟩ := List.mem_map.1 known
      rcases of_mem_way step with rfl | down
      · revert mem
        decide
      · obtain ⟨name, here, rfl⟩ := List.mem_map.1 down
        exact slashes (mem_of_mem_names here _ mem)

end

/-! ## Slashed paths -/

/-- Absolute, in normal form and without a backslash. -/
def Slashed (p : Path) : Prop := p.Normal ∧ '\\' ∉ p.text.toList

theorem slashed_ofNames {names : List String} (h : ∀ name ∈ names, IsName name)
    (slashes : ∀ name ∈ names, '\\' ∉ name.toList) : (ofNames names).Slashed := by
  refine ⟨⟨names, h, rfl⟩, ?_⟩
  rw [text_ofNames h, List.mem_cons, not_or]
  refine ⟨by decide, fun mem => ?_⟩
  rcases Text.mem_join mem with slash | ⟨piece, known, mem⟩
  · cases slash
  · obtain ⟨name, here, rfl⟩ := List.mem_map.1 known
    exact slashes name here mem

/-- What is read against a base has no other backslashes than the base. -/
theorem slashed_absolutize {base : Path} (h : base.isAbsolute = true)
    (slashes : '\\' ∉ base.text.toList) (text : String) :
    (absolutize base (ofPortable text)).Slashed := by
  let outer := if (ofPortable text).isAbsolute then [] else base.names
  have outside : ∀ name ∈ outer, IsName name ∧ '\\' ∉ name.toList := by
    intro name mem
    rcases List.mem_ite_nil_left.1 mem with ⟨-, mem⟩
    exact ⟨isName_names base name mem, fun backslash => slashes (mem_of_mem_names mem _ backslash)⟩
  have read : absolutize base (ofPortable text) = ofNames (resolve outer (ofPortable text).steps) :=
    absolutize_eq h
  rw [read]
  refine slashed_ofNames (isName_resolve fun name mem => (outside name mem).1) fun name mem => ?_
  obtain ⟨kept, new, resolved, before, after⟩ := resolve_cases outer (ofPortable text).steps
  rw [resolved] at mem
  rcases List.mem_append.1 mem with old | new
  · exact (outside name (before.subset old)).2
  · intro backslash
    have step := after.subset (List.mem_map_of_mem new)
    exact backslash_not_mem text (mem_of_mem_stepsOf step _ backslash)

namespace Slashed

variable {x : Path} (slashed : x.Slashed)
include slashed

theorem normalize_eq : x.normalize = x := by
  obtain ⟨⟨names, all, rfl⟩, -⟩ := slashed
  rw [Path.normalize_eq (isAbsolute_ofNames all), resolve_steps_ofNames all]

/-- Written with slashes only, the relative path leads to the path all the same. -/
theorem absolutize_toPortable {d : Path} (hd : d.isAbsolute = true) :
    absolutize d ⟨(relative d x).toPortable⟩ = x := by
  have absolute := slashed.1.isAbsolute
  have text : (relative d x).toPortable = (relative d x).text :=
    forwardSlashes_eq (backslash_not_mem_relative hd absolute slashed.2)
  rw [text, absolutize_relative hd absolute, slashed.normalize_eq]

end Slashed

end Emitter.Path
