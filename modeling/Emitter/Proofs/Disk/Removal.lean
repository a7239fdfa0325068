import Emitter.Proofs.Disk.Reservation

/-! Removing files. A path in normal form leads to the place with its names (`places_ofNames`), and
removing the file there takes away this one name (`node?_remove`); other paths lead where they led
(`file?_remove`), and no contents and no locks change. -/

namespace Emitter.Disk

open Emitter.Path (IsName)

/-! ## Places of normal paths -/

theorem places_ofNames {names : List String} (h : ∀ name ∈ names, IsName name) :
    places (Path.ofNames names) = names := by
  show (Path.solid (Path.ofNames names).text.toList).map String.ofList = names
  have noSlash : ∀ piece ∈ names.map String.toList, '/' ∉ piece := by
    simpa using fun name mem => (h name mem).noSlash
  have solid : ∀ piece ∈ names.map String.toList, piece ≠ [] := by
    simpa using fun name mem => (h name mem).ne_empty
  rw [Path.text_ofNames h, Path.solid_slash, Path.solid_join noSlash,
    List.filter_eq_self.2 (by simpa using solid)]
  simp

theorem normal_eq {p : Path} (h : p.Normal) : p = Path.ofNames (places p) := by
  obtain ⟨names, all, rfl⟩ := h
  rw [places_ofNames all]

/-- Names that are not dots lead down. -/
theorem walk_names {d : Disk} {place target : Place} {names : List String}
    (h : ∀ name ∈ names, IsName name) (walked : d.walk place names = .ok target) :
    target = place ++ names := by
  induction names generalizing place with
  | nil => simpa using (Except.ok.inj walked).symm
  | cons name rest ih =>
    have here := h name List.mem_cons_self
    rw [walk, if_neg (by rintro rfl; exact here.ne_dot rfl),
      if_neg (by rintro rfl; exact here.ne_dots rfl)] at walked
    split at walked
    · cases walked
    split at walked
    · cases walked
    · cases walked
    · rw [ih (fun other mem => h other (.tail _ mem)) walked]
      simp

/-- A name that a normal path leads to stands at the place of the path. -/
theorem place_of_locate {d : Disk} {p : Path} {parent : Place} {name : String} {slash : Bool}
    (normal : p.Normal) (h : d.locate p = .ok (.name parent name slash)) :
    parent ++ [name] = places p := by
  obtain ⟨leads, -⟩ := locate_eq_name.1 h
  have absolute := normal.isAbsolute
  obtain ⟨names, all, rfl⟩ := normal
  have last := leads.last
  have walked := leads.walked
  rw [places_ofNames all] at last walked ⊢
  rw [origin, if_pos absolute] at walked
  rcases List.eq_nil_or_concat' names with rfl | ⟨before, final, rfl⟩
  · cases last
  · rw [List.getLast?_concat, Option.some.injEq] at last
    rw [List.dropLast_concat] at walked
    rw [walk_names (fun n mem => all n (List.mem_append_left _ mem)) walked, last]
    rfl

/-- Two normal paths do not lead to one file. -/
theorem Sound.file?_ne {d : Disk} (sound : d.Sound) {p q : Path} {id other : FileId}
    (hp : p.Normal) (hq : q.Normal) (differs : p ≠ q) (h : d.file? p = .ok id)
    (h' : d.file? q = .ok other) : id ≠ other := by
  obtain ⟨a, m, located, -, found⟩ := file?_eq_ok.1 h
  obtain ⟨b, n, located', -, found'⟩ := file?_eq_ok.1 h'
  rintro rfl
  have same := sound.single _ _ id found found'
  rw [place_of_locate hp located, place_of_locate hq located'] at same
  exact differs (by rw [normal_eq hp, normal_eq hq, same])

/-! ## Names that are taken away -/

def erase (d : Disk) (place : Place) : Disk :=
  { d with nodes := d.nodes.filter (·.1 ≠ place) }

theorem lookup_filter_ne (nodes : List (Place × Node)) (place other : Place) :
    (nodes.filter (·.1 ≠ place)).lookup other =
      if other = place then none else nodes.lookup other := by
  induction nodes with
  | nil => simp
  | cons entry rest ih =>
    obtain ⟨here, node⟩ := entry
    by_cases dropped : here = place
    · rw [List.filter_cons_of_neg (by simpa using dropped), ih]
      split
      · rfl
      next other' =>
        have : (other == here) = false := by simpa [dropped] using other'
        rw [List.lookup_cons, this]
    · rw [List.filter_cons_of_pos (by simpa using dropped), List.lookup_cons, List.lookup_cons, ih]
      by_cases same : other = here
      · simp [same, dropped]
      · have : (other == here) = false := by simpa using same
        simp [this]

theorem node?_congr {d d' : Disk} (h : d.nodes = d'.nodes) (place : Place) :
    d.node? place = d'.node? place := by
  cases place with
  | nil => rfl
  | cons name rest => exact congrArg (List.lookup (name :: rest)) h

theorem node?_erase (d : Disk) {place : Place} (h : place ≠ []) (other : Place) :
    (d.erase place).node? other = if other = place then none else d.node? other := by
  rcases other with _ | ⟨name, rest⟩
  · rw [if_neg (Ne.symm h)]
    rfl
  · exact lookup_filter_ne d.nodes place (name :: rest)

/-- Removing takes away the name of a file that the path leads to, if there is one. -/
theorem remove_cases (d : Disk) (p : Path) :
    d.remove p = d ∨ ∃ parent name id, d.locate p = .ok (.name parent name false) ∧
      d.node? (parent ++ [name]) = some (.file id) ∧ d.remove p = d.erase (parent ++ [name]) := by
  unfold remove
  split
  · next located =>
    split
    · next found => exact .inr ⟨_, _, _, located, found, rfl⟩
    · exact .inl rfl
  · exact .inl rfl

@[simp] theorem content_remove (d : Disk) (p : Path) (id : FileId) :
    (d.remove p).content id = d.content id := by
  rcases d.remove_cases p with same | ⟨_, _, _, -, -, erased⟩
  · rw [same]
  · rw [erased]
    rfl

@[simp] theorem locked_remove (d : Disk) (p : Path) : (d.remove p).locked = d.locked := by
  rcases d.remove_cases p with same | ⟨_, _, _, -, -, erased⟩
  · rw [same]
  · rw [erased]
    rfl

@[simp] theorem files_remove (d : Disk) (p : Path) : (d.remove p).files = d.files := by
  rcases d.remove_cases p with same | ⟨_, _, _, -, -, erased⟩
  · rw [same]
  · rw [erased]
    rfl

/-- Removing gives no names. -/
theorem node?_of_remove {d : Disk} {p : Path} {place : Place} {node : Node}
    (h : (d.remove p).node? place = some node) : d.node? place = some node := by
  rcases d.remove_cases p with same | ⟨parent, name, id, -, -, erased⟩
  · rwa [same] at h
  rw [erased, node?_erase d (by simp)] at h
  split at h
  · cases h
  · exact h

theorem Sound.remove {d : Disk} (sound : d.Sound) (p : Path) : (d.remove p).Sound where
  valid place id found := by
    rw [files_remove]
    exact sound.valid place id (node?_of_remove found)
  single a b id ha hb := sound.single a b id (node?_of_remove ha) (node?_of_remove hb)

/-- The file at a normal path loses its name, and nothing else does. -/
theorem node?_remove {d : Disk} {p : Path} {id : FileId} (normal : p.Normal)
    (h : d.file? p = .ok id) (place : Place) :
    (d.remove p).node? place = if place = places p then none else d.node? place := by
  obtain ⟨parent, name, located, -, found⟩ := file?_eq_ok.1 h
  have removed : d.remove p = d.erase (parent ++ [name]) := by
    rw [remove, located]
    dsimp only
    rw [found]
    rfl
  rw [removed, place_of_locate normal located, node?_erase d]
  rw [← place_of_locate normal located]
  simp

/-! ## Other paths -/

section Folders

variable {d d' : Disk} (working : d'.working = d.working)
  (folders : ∀ place, d.node? place = some .folder → d'.node? place = some .folder)
include folders

/-- Only folders matter on the way. -/
theorem walk_of_folders {place target : Place} {names : List String}
    (h : d.walk place names = .ok target) : d'.walk place names = .ok target := by
  induction names generalizing place with
  | nil => exact h
  | cons name rest ih =>
    rw [walk] at h ⊢
    split at h
    · next dot => rw [if_pos dot]; exact ih h
    next dot =>
    rw [if_neg dot]
    split at h
    · next dots => rw [if_pos dots]; exact ih h
    next dots =>
    rw [if_neg dots]
    split at h
    · cases h
    next short =>
    rw [if_neg short]
    split at h
    · cases h
    · cases h
    · next found =>
      rw [folders _ found]
      exact ih h

include working

theorem locate_of_folders {p : Path} {parent : Place} {name : String} {slash : Bool}
    (h : d.locate p = .ok (.name parent name slash)) :
    d'.locate p = .ok (.name parent name slash) := by
  obtain ⟨leads, slashed⟩ := locate_eq_name.1 h
  have origin : d'.origin p = d.origin p := by rw [Disk.origin, Disk.origin, working]
  exact locate_eq_name.2 ⟨{ leads with
    walked := by rw [origin]; exact walk_of_folders folders leads.walked }, slashed⟩

end Folders

/-- Where a file is removed, other normal paths lead to the files they led to. -/
theorem file?_remove {d : Disk} {p q : Path} {id : FileId} (hp : p.Normal) (hq : q.Normal)
    (differs : p ≠ q) (h : d.file? p = .ok id) : (d.remove q).file? p = .ok id := by
  rcases d.remove_cases q with same | ⟨parent, name, other, located, found, erased⟩
  · rwa [same]
  have place : parent ++ [name] = places q := place_of_locate hq located
  have node : ∀ other, other ≠ places q → (d.remove q).node? other = d.node? other := by
    intro other elsewhere
    rw [erased, node?_erase d (by simp), if_neg (by rwa [place])]
  have working : (d.remove q).working = d.working := by rw [erased]; rfl
  have folders : ∀ other, d.node? other = some .folder →
      (d.remove q).node? other = some .folder := by
    intro other folder
    rw [node other (by rintro rfl; rw [← place, found] at folder; cases folder)]
    exact folder
  obtain ⟨parent', name', located', short, found'⟩ := file?_eq_ok.1 h
  refine file?_eq_ok.2 ⟨parent', name', locate_of_folders working folders located', short, ?_⟩
  rw [node _ ?_]
  · exact found'
  · rw [place_of_locate hp located']
    intro same
    exact differs (by rw [normal_eq hp, normal_eq hq, same])

/-! ## Removing many files -/

/-- What each removal keeps, all of them keep. -/
theorem removeAll_keeps {P : Disk → Prop} {paths : List Path} {d : Disk}
    (step : ∀ d, ∀ p ∈ paths, P d → P (d.remove p)) (start : P d) : P (paths.foldl remove d) := by
  induction paths generalizing d with
  | nil => exact start
  | cons p rest ih =>
    exact ih (fun d q mem => step d q (.tail _ mem)) (step d p List.mem_cons_self start)

@[simp] theorem content_removeAll (d : Disk) (paths : List Path) (id : FileId) :
    (paths.foldl remove d).content id = d.content id :=
  removeAll_keeps (P := fun d' => d'.content id = d.content id)
    (fun d' p _ same => (d'.content_remove p id).trans same) rfl

@[simp] theorem locked_removeAll (d : Disk) (paths : List Path) :
    (paths.foldl remove d).locked = d.locked :=
  removeAll_keeps (P := fun d' => d'.locked = d.locked)
    (fun d' p _ same => (d'.locked_remove p).trans same) rfl

@[simp] theorem files_removeAll (d : Disk) (paths : List Path) :
    (paths.foldl remove d).files = d.files :=
  removeAll_keeps (P := fun d' => d'.files = d.files)
    (fun d' p _ same => (d'.files_remove p).trans same) rfl

theorem Sound.removeAll {d : Disk} (sound : d.Sound) (paths : List Path) :
    (paths.foldl Disk.remove d).Sound :=
  removeAll_keeps (fun _ p _ sound => sound.remove p) sound

/-- Where others lose their files, a path leads to the file that it led to. -/
theorem file?_removeAll {d : Disk} {paths : List Path} {p : Path} {id : FileId} (hp : p.Normal)
    (normal : ∀ q ∈ paths, q.Normal) (apart : p ∉ paths) (h : d.file? p = .ok id) :
    (paths.foldl remove d).file? p = .ok id :=
  removeAll_keeps (P := fun d' => d'.file? p = .ok id)
    (fun _ q mem found => file?_remove hp (normal q mem) (fun same => apart (same ▸ mem)) found) h

/-- Files that are there lose their names, and nothing else does. -/
theorem node?_removeAll {d : Disk} {paths : List Path} (normal : ∀ p ∈ paths, p.Normal)
    (once : paths.Nodup) (there : ∀ p ∈ paths, ∃ id, d.file? p = .ok id) (place : Place) :
    (paths.foldl remove d).node? place =
      if place ∈ paths.map places then none else d.node? place := by
  induction paths generalizing d with
  | nil => rfl
  | cons p rest ih =>
    obtain ⟨new, once⟩ := List.nodup_cons.1 once
    obtain ⟨id, found⟩ := there p List.mem_cons_self
    have hp := normal p List.mem_cons_self
    have still : ∀ q ∈ rest, ∃ id, (d.remove p).file? q = .ok id := by
      intro q mem
      obtain ⟨other, found'⟩ := there q (.tail _ mem)
      exact ⟨other, file?_remove (normal q (.tail _ mem)) hp
        (by rintro rfl; exact new mem) found'⟩
    rw [List.foldl_cons, ih (fun q mem => normal q (.tail _ mem)) once still,
      node?_remove hp found]
    by_cases here : place = places p <;> simp [here]

end Emitter.Disk
