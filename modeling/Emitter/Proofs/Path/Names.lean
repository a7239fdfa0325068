import Emitter.Path.Lexical
import Emitter.Proofs.Text.Pieces
import Mathlib.Data.List.Basic
import Mathlib.Data.List.Induction

/-! Absolute paths in normal form are lists of names. The steps of a path are its components after
the root or the dot that it begins with; joining appends steps, and the normal form of an absolute
path is what its steps leave of the names before them (`absolutize_eq`). -/

namespace Emitter.Path

/-- What can stand in a folder. -/
structure IsName (name : String) : Prop where
  ne_empty : name.toList ≠ []
  ne_dot : name.toList ≠ ['.']
  ne_dots : name.toList ≠ ['.', '.']
  noSlash : '/' ∉ name.toList

theorem isName_concat {names : List String} {name : String} (h : ∀ n ∈ names, IsName n)
    (here : IsName name) : ∀ n ∈ names ++ [name], IsName n :=
  List.forall_mem_append.2 ⟨h, List.forall_mem_singleton.2 here⟩

/-- Down from the root through these names. -/
def ofNames (names : List String) : Path := ofComponents (.root :: names.map .name)

theorem ofNames_concat (names : List String) (name : String) :
    ofNames (names ++ [name]) = (ofNames names).join ⟨name⟩ := by
  simp [ofNames, ofComponents, Component.text]

theorem isAbsolute_of_noSlash {text : String} (h : '/' ∉ text.toList) :
    (⟨text⟩ : Path).isAbsolute = false := by
  rw [isAbsolute]
  rcases chars : text.toList with _ | ⟨c, rest⟩
  · rfl
  · rw [chars, List.mem_cons, not_or] at h
    simp [Ne.symm h.1]

/-- Joining a path that is not absolute appends its text, after a slash if none is there. -/
theorem text_join {p q : Path} (h : q.isAbsolute = false) :
    (p.join q).text.toList =
      p.text.toList ++ (if p.text.toList.getLast?.all (· == '/') then [] else ['/']) ++
        q.text.toList := by
  rw [join, h, if_neg Bool.false_ne_true]
  split <;> simp

/-- Only the root itself ends with a slash. -/
theorem getLast?_names (names : List String) {name : String} (h : IsName name) :
    ('/' :: Text.join '/' ((names ++ [name]).map String.toList)).getLast?.all (· == '/') =
      false := by
  have last := List.getLast?_eq_some_getLast h.ne_empty
  have noSlash : name.toList.getLast h.ne_empty ≠ '/' := fun slash =>
    h.noSlash (slash ▸ List.getLast_mem h.ne_empty)
  simp [Text.join_concat, List.getLast?_cons, List.getLast?_append, last, noSlash]

/-- Below the root a slash stands between each two names, and none at the end. -/
theorem text_ofNames {names : List String} (h : ∀ name ∈ names, IsName name) :
    (ofNames names).text.toList = '/' :: Text.join '/' (names.map String.toList) := by
  induction names using List.reverseRecOn with
  | nil => rfl
  | append_singleton names name ih =>
    have relative := isAbsolute_of_noSlash (h name (by simp)).noSlash
    rw [ofNames_concat, text_join relative, ih fun n hn => h n (by simp [hn])]
    rcases List.eq_nil_or_concat' names with rfl | ⟨before, last, rfl⟩
    · rfl
    · rw [getLast?_names before (h last (by simp)),
        @List.map_append _ _ String.toList (before ++ [last]), List.map_singleton,
        Text.join_concat, if_neg (by simp)]
      simp

/-! ## Steps -/

/-- The components of a text after the root or the dot that it begins with. -/
def stepsOf (text : List Char) : List Component :=
  ((Text.split '/' text).filter (!isTrivial ·)).map component

def steps (p : Path) : List Component := stepsOf p.text.toList

theorem components_eq (p : Path) : p.components = p.start ++ p.steps := rfl

theorem stepsOf_append (a b : List Char) : stepsOf (a ++ '/' :: b) = stepsOf a ++ stepsOf b := by
  simp [stepsOf, Text.split_append]

theorem stepsOf_slash (text : List Char) : stepsOf ('/' :: text) = stepsOf text :=
  stepsOf_append [] text

/-- A step is a name or goes up. -/
theorem of_mem_stepsOf {text : List Char} {c : Component} (h : c ∈ stepsOf text) :
    c = .parent ∨ ∃ name, c = .name name ∧ IsName name := by
  obtain ⟨piece, kept, rfl⟩ := List.mem_map.1 h
  obtain ⟨cut, solid⟩ := List.mem_filter.1 kept
  by_cases dots : piece = ['.', '.']
  · exact .inl (by simp [component, dots])
  · simp only [isTrivial, Bool.not_or, Bool.and_eq_true, Bool.not_eq_true',
      beq_eq_false_iff_ne] at solid
    have name : IsName (String.ofList piece) := by
      constructor <;> simp [solid, dots, Text.not_mem_of_mem_split cut]
    exact .inr ⟨_, if_neg dots, name⟩

theorem stepsOf_join {names : List String} (h : ∀ name ∈ names, IsName name) :
    stepsOf (Text.join '/' (names.map String.toList)) = names.map .name := by
  rcases names with _ | ⟨first, rest⟩
  · rfl
  · rw [stepsOf, Text.split_join (by simp) (by simpa using fun n hn => (h n hn).noSlash)]
    have solid : ∀ piece ∈ (first :: rest).map String.toList, !isTrivial piece := by
      intro piece hp
      obtain ⟨name, hn, rfl⟩ := List.mem_map.1 hp
      simp [isTrivial, (h name hn).ne_empty, (h name hn).ne_dot]
    rw [List.filter_eq_self.2 solid, List.map_map]
    refine List.map_congr_left fun name hn => ?_
    simp [component, (h name hn).ne_dots]

section

variable {names : List String} (h : ∀ name ∈ names, IsName name)
include h

theorem isAbsolute_ofNames : (ofNames names).isAbsolute = true := by
  simp [isAbsolute, text_ofNames h]

theorem steps_ofNames : (ofNames names).steps = names.map .name := by
  rw [steps, text_ofNames h, stepsOf_slash, stepsOf_join h]

theorem components_ofNames : (ofNames names).components = .root :: names.map .name := by
  rw [components_eq, start, isAbsolute_ofNames h, steps_ofNames h]
  rfl

end

theorem ofNames_inj {a b : List String} (ha : ∀ name ∈ a, IsName name)
    (hb : ∀ name ∈ b, IsName name) : (ofNames a).same (ofNames b) = true ↔ a = b := by
  rw [same_iff, components_ofNames ha, components_ofNames hb]
  constructor
  · intro h
    have inj : Function.Injective Component.name := fun _ _ e => Component.name.inj e
    exact inj.list_map (List.cons.inj h).2
  · rintro rfl
    rfl

/-- Joining a path that is not absolute appends its steps. -/
theorem steps_join (p : Path) {q : Path} (h : q.isAbsolute = false) :
    (p.join q).steps = p.steps ++ q.steps := by
  rw [join, if_neg (by simp [h])]
  split
  · next ends =>
    rcases List.eq_nil_or_concat' p.text.toList with nothing | ⟨before, last, text⟩
    · simp [steps, nothing, stepsOf, Text.split, isTrivial]
    · obtain rfl : last = '/' := by simpa [text] using ends
      have before' : stepsOf (before ++ ['/']) = stepsOf before := by
        rw [stepsOf_append]
        exact List.append_nil _
      simp [steps, text, stepsOf_append, before']
  · simp [steps, stepsOf_append]

theorem isAbsolute_join {p : Path} (h : p.isAbsolute = true) (q : Path) :
    (p.join q).isAbsolute = true := by
  rcases text : p.text.toList with _ | ⟨c, rest⟩
  · simp [isAbsolute, text] at h
  · have slash : c = '/' := by simpa [isAbsolute, text] using h
    rw [join]
    split
    · assumption
    · split <;> simp [isAbsolute, text, slash]

/-! ## Normal forms -/

/-- A name goes below the names before it, and two dots go back above the last one. -/
def climb (names : List String) : Component → List String
  | .name name => names ++ [name]
  | .parent => names.dropLast
  | _ => names

def resolve (names : List String) (steps : List Component) : List String :=
  steps.foldl climb names

theorem resolve_append (names : List String) (a b : List Component) :
    resolve names (a ++ b) = resolve (resolve names a) b := by
  simp [resolve]

theorem resolve_names (names more : List String) :
    resolve names (more.map .name) = names ++ more := by
  induction more generalizing names with
  | nil => simp [resolve]
  | cons name rest ih =>
    have : resolve names ((name :: rest).map .name) = resolve (names ++ [name]) (rest.map .name) :=
      rfl
    rw [this, ih]
    simp

/-- What is left of names and steps are names. -/
theorem isName_resolve {text : List Char} {names : List String}
    (h : ∀ name ∈ names, IsName name) : ∀ name ∈ resolve names (stepsOf text), IsName name := by
  have step : ∀ c ∈ stepsOf text, ∀ before : List String, (∀ name ∈ before, IsName name) →
      ∀ name ∈ climb before c, IsName name := by
    intro c hc before all name hn
    rcases of_mem_stepsOf hc with rfl | ⟨new, rfl, valid⟩
    · exact all name (List.dropLast_subset before hn)
    · rcases List.mem_append.1 hn with old | new
      · exact all name old
      · rwa [List.mem_singleton.1 new]
  generalize stepsOf text = steps at step
  induction steps generalizing names with
  | nil => exact h
  | cons c rest ih =>
    exact ih (step c List.mem_cons_self names h) fun c hc => step c (.tail _ hc)

/-- The stack of a fold has the names in reverse above the root. -/
theorem foldl_onto {text : List Char} (names : List String) :
    (stepsOf text).foldl Component.onto ((names.map .name).reverse ++ [.root]) =
      ((resolve names (stepsOf text)).map .name).reverse ++ [.root] := by
  have step : ∀ c ∈ stepsOf text, ∀ before : List String,
      Component.onto ((before.map .name).reverse ++ [.root]) c =
        ((climb before c).map .name).reverse ++ [.root] := by
    intro c hc before
    rcases of_mem_stepsOf hc with rfl | ⟨new, rfl, -⟩
    · rcases List.eq_nil_or_concat' before with rfl | ⟨outer, last, rfl⟩
      · rfl
      · simp [climb, Component.onto]
    · simp [climb, Component.onto]
  generalize stepsOf text = steps at step
  induction steps generalizing names with
  | nil => rfl
  | cons c rest ih =>
    rw [List.foldl_cons, step c List.mem_cons_self]
    exact ih (climb names c) fun c hc => step c (.tail _ hc)

theorem normal_components {p : Path} (h : p.isAbsolute = true) :
    normal p.components = .root :: (resolve [] p.steps).map .name := by
  have folded : fold p.components = .root :: (resolve [] p.steps).map .name := by
    have := @foldl_onto p.text.toList []
    rw [components_eq, start, if_pos h, fold]
    show (p.steps.foldl Component.onto [.root]).reverse = _
    rw [steps]
    simpa using congrArg List.reverse this
  rw [normal, folded]

theorem normalize_eq {p : Path} (h : p.isAbsolute = true) :
    p.normalize = ofNames (resolve [] p.steps) := by
  rw [normalize, normal_components h]
  rfl

/-- A path seen from an absolute base: its steps go on from the names of the base, or from the
root. -/
theorem absolutize_eq {base p : Path} (h : base.isAbsolute = true) :
    absolutize base p =
      ofNames (resolve (if p.isAbsolute then [] else resolve [] base.steps) p.steps) := by
  rw [absolutize]
  split
  · next absolute => rw [normalize_eq absolute]
  · next relative =>
    rw [normalize_eq (isAbsolute_join h p), steps_join base (by simpa using relative),
      resolve_append]

/-- Absolute, and without a dot or a slash too many. -/
def Normal (p : Path) : Prop :=
  ∃ names : List String, (∀ name ∈ names, IsName name) ∧ p = ofNames names

theorem normal_root : (ofNames []).Normal := ⟨[], nofun, rfl⟩

theorem normal_absolutize {base : Path} (h : base.isAbsolute = true) (p : Path) :
    (absolutize base p).Normal := by
  refine ⟨_, isName_resolve ?_, absolutize_eq h⟩
  split
  · exact nofun
  · exact isName_resolve nofun

namespace Normal

variable {p q : Path} (hp : p.Normal)
include hp

theorem isAbsolute : p.isAbsolute = true := by
  obtain ⟨names, all, rfl⟩ := hp
  exact isAbsolute_ofNames all

theorem same_iff (hq : q.Normal) : p.same q = true ↔ p = q := by
  obtain ⟨a, ha, rfl⟩ := hp
  obtain ⟨b, hb, rfl⟩ := hq
  refine ⟨fun same => by rw [(ofNames_inj ha hb).1 same], fun same => ?_⟩
  rw [same, Path.same_iff]

theorem pieces_ne : ∀ piece ∈ p.pieces, piece ≠ ['.'] ∧ piece ≠ ['.', '.'] := by
  obtain ⟨names, all, rfl⟩ := hp
  intro piece mem
  have cut : piece = [] ∨ piece ∈ names.map String.toList := by
    rw [pieces, text_ofNames all, Text.split, if_pos rfl, List.mem_cons] at mem
    rcases mem with rfl | mem
    · exact .inl rfl
    rcases names with _ | ⟨first, rest⟩
    · exact .inl (List.mem_singleton.1 mem)
    · rw [Text.split_join (by simp) (by simpa using fun n hn => (all n hn).noSlash)] at mem
      exact .inr mem
  rcases cut with rfl | named
  · simp
  · obtain ⟨name, known, rfl⟩ := List.mem_map.1 named
    exact ⟨(all name known).ne_dot, (all name known).ne_dots⟩

end Normal

end Emitter.Path
