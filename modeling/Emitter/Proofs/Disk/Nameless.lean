import Emitter.Proofs.Disk.Removal

/-! Files that have lost their name. A file that is held outlives its name, and no path leads to it
any more (`Nameless.file?_ne`). Removing takes names away (`nameless_removeAll`) and never gives one,
and a name that is new leads to a file that is new (`fresh_reserve`), so a file without a name stays
without one. -/

namespace Emitter.Disk

/-- No name leads to the file. -/
def Nameless (d : Disk) (id : FileId) : Prop := ∀ place, d.node? place ≠ some (.file id)

theorem Nameless.file?_ne {d : Disk} {id : FileId} (nameless : d.Nameless id) (p : Path) :
    d.file? p ≠ .ok id := by
  intro found
  obtain ⟨parent, name, -, -, node⟩ := file?_eq_ok.1 found
  exact nameless _ node

/-! ## Names are taken away -/

theorem Nameless.remove {d : Disk} {id : FileId} (nameless : d.Nameless id) (p : Path) :
    (d.remove p).Nameless id :=
  fun place found => nameless place (node?_of_remove found)

/-- In a sound disk the file at a normal path has this name alone. -/
theorem nameless_remove {d : Disk} {p : Path} {id : FileId} (sound : d.Sound) (normal : p.Normal)
    (h : d.file? p = .ok id) : (d.remove p).Nameless id := by
  obtain ⟨parent, name, located, -, found⟩ := file?_eq_ok.1 h
  intro place left
  have only : place = parent ++ [name] := sound.single _ _ id (node?_of_remove left) found
  rw [node?_remove normal h, if_pos (only.trans (place_of_locate normal located))] at left
  cases left

theorem nameless_removeAll {d : Disk} {paths : List Path} {p : Path} {id : FileId}
    (sound : d.Sound) (normal : ∀ q ∈ paths, q.Normal) (mem : p ∈ paths)
    (h : d.file? p = .ok id) : (paths.foldl Disk.remove d).Nameless id := by
  -- Up to the path itself the removals leave its file in place, and after it they give no names.
  induction paths generalizing d with
  | nil => cases mem
  | cons q rest ih =>
    have hq := normal q List.mem_cons_self
    rw [List.foldl_cons]
    by_cases here : p = q
    · subst here
      exact removeAll_keeps (P := (Nameless · id)) (fun _ q _ nameless => nameless.remove q)
        (nameless_remove sound hq h)
    · have hp : p ∈ rest := (List.mem_cons.1 mem).resolve_left here
      have later : ∀ q ∈ rest, q.Normal := fun q mem => normal q (.tail _ mem)
      exact ih (sound.remove q) later hp (file?_remove (later p hp) hq here h)

/-! ## Names are given -/

/-- No file vanishes, and names that are new lead to files that are new. -/
structure Fresh (d d' : Disk) : Prop where
  files : d.files.length ≤ d'.files.length
  names : ∀ place id, d'.node? place = some (.file id) →
    d.node? place = some (.file id) ∨ d.files.length ≤ id

namespace Fresh

theorem of_nodes {d d' : Disk} (same : d'.nodes = d.nodes)
    (files : d.files.length ≤ d'.files.length) : Fresh d d' where
  files := files
  names place _ found := .inl ((node?_congr same place).symm.trans found)

theorem refl (d : Disk) : Fresh d d := .of_nodes rfl (Nat.le_refl _)

theorem trans {d₁ d₂ d₃ : Disk} (h : Fresh d₁ d₂) (h' : Fresh d₂ d₃) : Fresh d₁ d₃ where
  files := Nat.le_trans h.files h'.files
  names place id found := by
    rcases h'.names place id found with old | new
    · exact h.names place id old
    · exact .inr (Nat.le_trans h.files new)

theorem addFolder (d : Disk) (place : Place) : Fresh d (d.addNode place .folder) where
  files := Nat.le_refl _
  names other id found := by
    rcases node?_of_addNode found with old | new
    · exact .inl old
    · cases new

theorem addFile (d : Disk) (place : Place) : Fresh d (d.addFile place) where
  files := (grows_addFile d place).files
  names other id found := by
    rcases node?_of_addFile found with old | ⟨-, new⟩
    · exact .inl old
    · cases new
      exact .inr (Nat.le_refl _)

theorem makeParent (d : Disk) (p : Path) : Fresh d (d.makeParent p).2 :=
  makeParent_keeps (P := Fresh d) (fun d' place fresh => fresh.trans (.addFolder d' place)) (.refl d)

theorem openFile {d d' : Disk} {p : Path} {id : FileId} (h : d.openFile p = .ok (id, d')) :
    Fresh d d' := by
  rcases (openFile_eq_ok h).2 with rfl | ⟨place, rfl, -⟩
  · exact .refl d'
  · exact .addFile d place

end Fresh

/-- A file without a name stays without one. -/
theorem Fresh.nameless {d d' : Disk} (h : Fresh d d') {id : FileId} (file : id < d.files.length)
    (nameless : d.Nameless id) : d'.Nameless id := by
  intro place found
  rcases h.names place id found with old | new
  · exact nameless place old
  · exact absurd file (Nat.not_lt.2 new)

theorem fresh_reserve {d d' : Disk} {p : Path} {result : Except Error Output}
    (h : Output.reserve p d = (result, d')) : Fresh d d' := by
  have parents := Fresh.makeParent d p
  unfold Output.reserve at h
  split at h
  · next made =>
    cases h
    rwa [made] at parents
  next d₁ made =>
  rw [made] at parents
  split at h
  · cases h
    exact parents
  next id d₂ opened =>
  have fresh : Fresh d d₂ := parents.trans (.openFile opened)
  split at h
  · cases h
    exact fresh
  · cases h
    exact fresh.trans (.of_nodes rfl (grows_setContent _ id []).files)

/-! ## Locked files -/

/-- Nothing happens to the files that are locked, but perhaps to one of them, and no file that is
there gets a name. -/
structure Orderly (own : Option FileId) (d d' : Disk) : Prop extends Grows d d' where
  fresh : Fresh d d'
  sound : d.Sound → d'.Sound
  content : ∀ id, d.isLocked id = true → own ≠ some id → d'.content id = d.content id
  locked : ∀ id, d.isLocked id = true → own ≠ some id → d'.isLocked id = true

theorem Orderly.refl (d : Disk) : Orderly none d d :=
  ⟨.refl d, .refl d, id, fun _ _ _ => rfl, fun _ locked _ => locked⟩

theorem Extends.orderly {d d' : Disk} (h : Extends d d') (fresh : Fresh d d') :
    Orderly none d d' where
  toGrows := h.toGrows
  fresh := fresh
  sound := h.sound
  content id _ _ := h.content id
  locked id locked _ := (h.isLocked id).trans locked

theorem Within.orderly {own : FileId} {d d' : Disk} (h : Within own d d') (fresh : Fresh d d') :
    Orderly (some own) d d' where
  toGrows := h.toGrows
  fresh := fresh
  sound := h.sound
  content id _ differs := h.content id fun same => differs (same ▸ rfl)
  locked id locked differs := (h.isLocked id fun same => differs (same ▸ rfl)).trans locked

/-- A file that was not locked is nobody's. -/
theorem Orderly.unlocked {own : FileId} {d d' : Disk} (h : Orderly (some own) d d')
    (free : d.isLocked own = false) : Orderly none d d' := by
  have differs : ∀ id, d.isLocked id = true → some own ≠ some id := by
    rintro id locked same
    cases same
    cases free.symm.trans locked
  exact { h with
    content := fun id locked _ => h.content id locked (differs id locked)
    locked := fun id locked _ => h.locked id locked (differs id locked) }

end Emitter.Disk
