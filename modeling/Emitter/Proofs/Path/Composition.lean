import Emitter.Proofs.Path.Relative

/-! Normal forms compose. Folding the steps of a path before they are taken from a base leads to the
same place (`resolve_fold`), also where they go up past the root. So a base and a path may be
normalized or not before one is read against the other (`absolutize_normalize`), and reading two
paths one after the other is reading them joined (`absolutize_absolutize`). -/

namespace Emitter.Path

/-! ## Folded steps -/

/-- On steps without the root, taking one back is going up from the last name. -/
theorem resolve_onto (before : List String) {stack : List Component} (rootless : .root ∉ stack)
    {c : Component} (h : IsStep c) :
    resolve before (Component.onto stack c).reverse = climb (resolve before stack.reverse) c := by
  have put (c : Component) :
      resolve before (c :: stack).reverse = climb (resolve before stack.reverse) c := by
    rw [List.reverse_cons, resolve_append]
    rfl
  rcases h with rfl | ⟨name, rfl, -⟩
  · rcases stack with _ | ⟨top, below⟩
    · exact put .parent
    cases top with
    | name name =>
      have named : resolve before (.name name :: below).reverse =
          resolve before below.reverse ++ [name] := by
        rw [List.reverse_cons, resolve_append]
        rfl
      rw [named, climb, List.dropLast_concat]
      rfl
    | root => exact absurd List.mem_cons_self rootless
    | current => exact put .parent
    | parent => exact put .parent
  · exact put (.name name)

theorem root_not_mem_upDown (ups : Nat) (names : List String) : .root ∉ upDown ups names := by
  simp [upDown]

theorem resolve_foldl_onto (before : List String) {steps : List Component}
    (h : ∀ c ∈ steps, IsStep c) :
    resolve before (steps.foldl Component.onto []).reverse = resolve before steps := by
  induction steps using List.reverseRecOn with
  | nil => rfl
  | append_singleton steps c ih =>
    have earlier : ∀ c ∈ steps, IsStep c := fun c mem => h c (List.mem_append_left _ mem)
    obtain ⟨ups, names, -, folded⟩ := foldl_onto_steps earlier
    have rootless : .root ∉ steps.foldl Component.onto [] := by
      rw [folded, List.mem_reverse]
      exact root_not_mem_upDown ups names
    rw [List.foldl_concat, resolve_onto before rootless (h c (by simp)), ih earlier, resolve_append]
    rfl

theorem steps_normalize {p : Path} (relative : p.isAbsolute = false) :
    p.normalize.steps = fold p.components := by
  obtain ⟨ups, names, valid, folded⟩ := fold_relative relative
  rw [normalize, normal_eq_ite, folded]
  split
  · next stays =>
    rw [stays]
    rfl
  · exact steps_ofComponents (isStep_upDown ups valid)

/-- From wherever they are taken, the steps of the normal form lead to the same place. -/
theorem resolve_steps_normalize {p : Path} (relative : p.isAbsolute = false)
    (before : List String) : resolve before p.normalize.steps = resolve before p.steps := by
  rw [steps_normalize relative, fold, foldl_components relative]
  exact resolve_foldl_onto before fun c mem => of_mem_stepsOf mem

/-! ## Bases -/

theorem names_ofNames {names : List String} (h : ∀ name ∈ names, IsName name) :
    (ofNames names).names = names := resolve_steps_ofNames h

theorem names_normalize {p : Path} (h : p.isAbsolute = true) : p.normalize.names = p.names := by
  rw [normalize_eq h]
  exact names_ofNames (isName_names p)

/-- The names that a path leads to from a base. -/
def namesFrom (base p : Path) : List String :=
  resolve (if p.isAbsolute then [] else base.names) p.steps

theorem isName_namesFrom (base p : Path) : ∀ name ∈ namesFrom base p, IsName name := by
  refine isName_resolve ?_
  split
  · exact nofun
  · exact isName_names base

/-- What is joined to a path leaves it as absolute as it is. -/
theorem isAbsolute_join_relative (p : Path) {q : Path} (relative : q.isAbsolute = false) :
    (p.join q).isAbsolute = p.isAbsolute := by
  rw [isAbsolute, text_join relative, isAbsolute]
  rcases p.text.toList with _ | ⟨c, rest⟩
  · exact relative
  · rfl

/-- From where a path leads, the path joined to it goes on. -/
theorem namesFrom_join (base p : Path) {q : Path} (relative : q.isAbsolute = false) :
    namesFrom base (p.join q) = resolve (namesFrom base p) q.steps := by
  rw [namesFrom, isAbsolute_join_relative p relative, steps_join p relative, resolve_append,
    ← namesFrom]

theorem namesFrom_normalize {base : Path} (h : base.isAbsolute = true) (p : Path) :
    namesFrom base.normalize p.normalize = namesFrom base p := by
  rw [namesFrom, namesFrom, isAbsolute_normalize, names_normalize h]
  rcases absolute : p.isAbsolute with _ | _
  · exact resolve_steps_normalize absolute base.names
  · exact names_normalize absolute

section

variable {base : Path} (h : base.isAbsolute = true)
include h

theorem absolutize_eq_ofNames (p : Path) : absolutize base p = ofNames (namesFrom base p) :=
  absolutize_eq h

/-- It does not matter which of the two are in normal form already. -/
theorem absolutize_normalize (p : Path) :
    absolutize base.normalize p.normalize = absolutize base p := by
  have absolute : base.normalize.isAbsolute = true := (isAbsolute_normalize base).trans h
  rw [absolutize_eq_ofNames absolute, namesFrom_normalize h, ← absolutize_eq_ofNames h]

/-- Reading one path after the other is reading them joined. -/
theorem absolutize_absolutize (p q : Path) :
    absolutize (absolutize base p) q = absolutize base (p.join q) := by
  rcases absolute : q.isAbsolute with _ | _
  · have valid := isName_namesFrom base p
    rw [absolutize_eq_ofNames h (p.join q), namesFrom_join base p absolute,
      absolutize_eq_ofNames h p, absolutize_eq_ofNames (isAbsolute_ofNames valid), namesFrom,
      absolute, if_neg Bool.false_ne_true, names_ofNames valid]
  · rw [join, if_pos absolute, absolutize, if_pos absolute, absolutize, if_pos absolute]

end

/-! ## Canonical and compositional -/

/-- Normal forms are fixed, are as absolute as the path and have reduced components only; against a
base, a path reads like its normal form, and two paths one after the other read like the two
joined. -/
theorem normalize_canonical (p : Path) :
    p.normalize.normalize = p.normalize ∧
      p.normalize.isAbsolute = p.isAbsolute ∧
      IsReduced p.isAbsolute p.normalize.components ∧
      p.normalize = ofComponents p.normalize.components ∧
      ∀ base : Path, base.isAbsolute = true →
        absolutize base p = absolutize base.normalize p.normalize ∧
          ∀ q, absolutize (absolutize base p) q = absolutize base (p.join q) := by
  refine ⟨normalize_normalize p, isAbsolute_normalize p, ?_, ?_, fun base h => ⟨?_, fun q => ?_⟩⟩
  · rw [components_normalize]
    exact isReduced_normal p
  · rw [components_normalize, ← normalize]
  · exact (absolutize_normalize h p).symm
  · exact absolutize_absolutize h p q

/-- Steps up that go past the root are no steps, before and after joining. -/
theorem normalize_canonical_past_root :
    (⟨"/a"⟩ : Path).isAbsolute = true ∧
      absolutize ⟨"/a"⟩ ⟨"b/../../.././c"⟩ =
        absolutize (normalize ⟨"/a"⟩) (normalize ⟨"b/../../.././c"⟩) ∧
      absolutize (absolutize ⟨"/a"⟩ ⟨"b/../../.././c"⟩) ⟨"../../d"⟩ =
        absolutize ⟨"/a"⟩ (join ⟨"b/../../.././c"⟩ ⟨"../../d"⟩) ∧
      absolutize ⟨"/a"⟩ (join ⟨"b/../../.././c"⟩ ⟨"../../d"⟩) = ⟨"/d"⟩ := by
  have rooted : (⟨"/a"⟩ : Path).isAbsolute = true := by decide
  obtain ⟨-, -, -, -, read⟩ := normalize_canonical ⟨"b/../../.././c"⟩
  exact ⟨rooted, (read ⟨"/a"⟩ rooted).1, (read ⟨"/a"⟩ rooted).2 ⟨"../../d"⟩, by decide⟩

end Emitter.Path
