import Emitter.Proofs.Disk.Files
import Emitter.Proofs.Path.Parent

/-! Reserving a file, for every outcome. The folder of a file that a path leads to is there
(`makeParent_of_file?`), so that reserving it makes nothing new: it is refused while the file is
locked and takes the file otherwise (`reserve_of_file?`). A reservation changes at most the contents
and the lock of the file that it gives (`reserve_cases`). -/

namespace Emitter.Disk

/-! ## The folder of a file -/

theorem walk_append (d : Disk) (place : Place) (a b : List String) :
    d.walk place (a ++ b) = (d.walk place a).bind fun reached => d.walk reached b := by
  induction a generalizing place with
  | nil => rfl
  | cons name rest ih =>
    simp only [List.cons_append, walk, ih]
    split
    · rfl
    split
    · rfl
    split
    · rfl
    split <;> rfl

/-- Dots lead nowhere else. -/
theorem walk_dots (d : Disk) (place : Place) {dots : List String} (h : ∀ dot ∈ dots, dot = ".") :
    d.walk place dots = .ok place := by
  induction dots with
  | nil => rfl
  | cons dot rest ih =>
    rw [walk, if_pos (h dot List.mem_cons_self)]
    exact ih fun other mem => h other (.tail _ mem)

/-- Where a path leads to a name in a folder. -/
structure LeadsTo (d : Disk) (p : Path) (parent : Place) (name : String) : Prop where
  noNull : '\x00' ∉ p.text.toList
  nonempty : p.text ≠ ""
  short : ¬ maxPathBytes < p.text.utf8ByteSize
  last : (places p).getLast? = some name
  walked : d.walk (d.origin p) (places p).dropLast = .ok parent
  ne_dot : name ≠ "."
  ne_dots : name ≠ ".."

theorem locate_eq_name {d : Disk} {p : Path} {parent : Place} {name : String} {slash : Bool} :
    d.locate p = .ok (.name parent name slash) ↔
      d.LeadsTo p parent name ∧ slash = (p.text.toList.getLast? == some '/') := by
  constructor
  · intro h
    unfold locate at h
    split at h
    · cases h
    next noNull =>
    split at h
    · cases h
    next nonempty =>
    split at h
    · cases h
    next short =>
    split at h
    · cases h
    next last some =>
    split at h
    · cases h
    next walked =>
    split at h
    · cases h
    next ne_dot =>
    split at h
    · cases h
    next ne_dots =>
    cases h
    exact ⟨⟨by simpa using noNull, nonempty, short, some, walked, ne_dot, ne_dots⟩, rfl⟩
  · rintro ⟨leads, rfl⟩
    simp [locate, leads.noNull, leads.nonempty, leads.short, leads.last, leads.walked,
      leads.ne_dot, leads.ne_dots]

theorem file?_eq_ok {d : Disk} {p : Path} {id : FileId} :
    d.file? p = .ok id ↔ ∃ parent name, d.locate p = .ok (.name parent name false) ∧
      isLong name = false ∧ d.node? (parent ++ [name]) = some (.file id) := by
  constructor
  · intro h
    unfold file? at h
    split at h
    · cases h
    · cases h
    next parent name slash located =>
    split at h
    · cases h
    next short =>
    split at h
    · cases h
    · cases h
    next found =>
    split at h
    · cases h
    next noSlash =>
    cases h
    obtain rfl : slash = false := by simpa using noSlash
    exact ⟨parent, name, located, by simpa using short, found⟩
  · rintro ⟨parent, name, located, short, found⟩
    simp [file?, located, short, found]

/-- A path all of whose names lead through folders is a folder, and is not made again. -/
theorem makeFolder_of_walk {d : Disk} {q : Path} {place : Place}
    (noNull : '\x00' ∉ q.text.toList) (nonempty : q.text ≠ "")
    (short : ¬ maxPathBytes < q.text.utf8ByteSize)
    (walked : d.walk (d.origin q) (places q) = .ok place) :
    d.makeFolder q = .error .alreadyExists ∧ d.isFolder q = true := by
  rcases List.eq_nil_or_concat' (places q) with none | ⟨before, last, names⟩
  · have located : d.locate q = .ok (.folder (d.origin q)) := by
      simp [locate, noNull, nonempty, short, none]
    simp [makeFolder, isFolder, located]
  · rw [names, walk_append] at walked
    obtain ⟨reached, through, step⟩ : ∃ reached, d.walk (d.origin q) before = .ok reached ∧
        d.walk reached [last] = .ok place := by
      rcases through : d.walk (d.origin q) before with fault | reached
      · rw [through] at walked
        cases walked
      · rw [through] at walked
        exact ⟨reached, rfl, walked⟩
    have located : d.locate q =
        if last = "." then .ok (.folder reached)
        else if last = ".." then .ok (.folder reached.dropLast)
        else .ok (.name reached last (q.text.toList.getLast? == some '/')) := by
      simp [locate, noNull, nonempty, short, names, through]
    by_cases dot : last = "."
    · simp [makeFolder, isFolder, located, dot]
    by_cases dots : last = ".."
    · simp [makeFolder, isFolder, located, dots]
    rw [walk, if_neg dot, if_neg dots] at step
    split at step
    · cases step
    next notLong =>
    split at step
    · cases step
    · cases step
    next found =>
    simp [makeFolder, isFolder, located, dot, dots, notLong, found]

/-- The folder that a file stands in is there, whatever the spelling of the path. -/
theorem makeParent_of_file? {d : Disk} {p : Path} {id : FileId} (h : d.file? p = .ok id) :
    d.makeParent p = (.ok (), d) := by
  obtain ⟨parent, name, located, -, -⟩ := file?_eq_ok.1 h
  obtain ⟨leads, -⟩ := locate_eq_name.1 located
  rcases above : p.parent? with _ | q
  · rw [makeParent, above]
  by_cases nonempty : q.text = ""
  · rw [makeParent, above]
    exact if_pos nonempty
  have named : (Path.solid p.text.toList).getLast? ≠ some ['.'] := by
    intro dot
    have last : (places p).getLast? = some (String.ofList ['.']) := by
      show ((Path.solid p.text.toList).map String.ofList).getLast? = _
      rw [List.getLast?_map, dot]
      rfl
    exact leads.ne_dot (Option.some.inj (leads.last.symm.trans last))
  obtain ⟨isPrefix, dots, last, pieces, allDots⟩ := Path.parent?_eq_some above nonempty named
  obtain ⟨rest, text⟩ := isPrefix
  have origin : d.origin q = d.origin p := by
    have nonempty' : q.text.toList ≠ [] := by simpa using nonempty
    rw [Disk.origin, Disk.origin, Path.isAbsolute, Path.isAbsolute, ← text,
      List.head?_append_of_ne_nil _ nonempty']
  have walked : d.walk (d.origin q) (places q) = .ok parent := by
    have through := leads.walked
    have names : (places p).dropLast = places q ++ dots.map String.ofList := by
      show ((Path.solid p.text.toList).map String.ofList).dropLast = _
      rw [pieces, List.map_append, List.map_singleton, List.dropLast_concat, List.map_append]
      rfl
    rw [names, walk_append, ← origin] at through
    rcases reached : d.walk (d.origin q) (places q) with fault | place
    · rw [reached] at through
      cases through
    · have still : ∀ dot ∈ dots.map String.ofList, dot = "." := by
        intro dot mem
        obtain ⟨piece, hp, rfl⟩ := List.mem_map.1 mem
        rw [allDots piece hp]
      rw [reached] at through
      exact (walk_dots d place still).symm.trans through
  have noNull : '\x00' ∉ q.text.toList := fun null =>
    leads.noNull (text ▸ List.mem_append_left rest null)
  have short : ¬ maxPathBytes < q.text.utf8ByteSize := by
    have size : p.text = q.text ++ String.ofList rest := by
      rw [← String.toList_inj, String.toList_append, String.toList_ofList, text]
    have := leads.short
    rw [size, String.utf8ByteSize_append] at this
    omega
  obtain ⟨made, folder⟩ := makeFolder_of_walk noNull nonempty short walked
  have chain : d.makeFolders q = (.ok (), d) := by
    rw [makeFolders]
    obtain ⟨more, chain⟩ : ∃ more, ancestors q.text.toList.length q = q :: more := by
      unfold ancestors
      split <;> exact ⟨_, rfl⟩
    rw [chain, makeChain, if_neg nonempty, made]
    simp [folder]
  rw [makeParent, above]
  dsimp only
  rw [if_neg nonempty, chain]

/-! ## Disks that are made larger -/

/-- Names lead to files that are there, and no file has two names, as there are no hard links. -/
structure Sound (d : Disk) : Prop where
  valid : d.Valid
  single : ∀ place other id, d.node? place = some (.file id) → d.node? other = some (.file id) →
    place = other

theorem sound_empty (working : Path) : (empty working).Sound where
  valid := valid_empty working
  single place _ id found _ := absurd (valid_empty working place id found) (Nat.not_lt_zero id)

/-- More folders and more empty files, and nothing else. -/
structure Extends (d d' : Disk) : Prop extends Grows d d' where
  content : ∀ id, d'.content id = d.content id
  locked : d'.locked = d.locked
  sound : d.Sound → d'.Sound

theorem Extends.refl (d : Disk) : Extends d d := ⟨.refl d, fun _ => rfl, rfl, id⟩

theorem Extends.trans {d₁ d₂ d₃ : Disk} (h : Extends d₁ d₂) (h' : Extends d₂ d₃) :
    Extends d₁ d₃ where
  toGrows := h.toGrows.trans h'.toGrows
  content id := (h'.content id).trans (h.content id)
  locked := h'.locked.trans h.locked
  sound sound := h'.sound (h.sound sound)

theorem Extends.isLocked {d d' : Disk} (h : Extends d d') (id : FileId) :
    d'.isLocked id = d.isLocked id := by
  rw [Disk.isLocked, Disk.isLocked, h.locked]

theorem extends_addFolder (d : Disk) (place : Place) : Extends d (d.addNode place .folder) where
  toGrows := grows_addNode d place .folder
  content _ := rfl
  locked := rfl
  sound sound := {
    valid := sound.valid.addFolder place
    single := by
      intro a b id ha hb
      rcases node?_of_addNode ha with ha | ha
      · rcases node?_of_addNode hb with hb | hb
        · exact sound.single a b id ha hb
        · cases hb
      · cases ha }

/-- Only the new name leads to the new file. -/
theorem node?_of_addFile {d : Disk} {place other : Place} {node : Node}
    (h : (d.addFile place).node? other = some node) :
    d.node? other = some node ∨ other = place ∧ node = .file d.files.length := by
  have h' : (d.addNode place (.file d.files.length)).node? other = some node := h
  by_cases same : other = place
  · rcases node?_of_addNode h' with old | new
    · exact .inl old
    · exact .inr ⟨same, new⟩
  · rcases other with _ | ⟨name, rest⟩
    · exact .inl h'
    · have looked : (d.nodes ++ [(place, Node.file d.files.length)]).lookup (name :: rest) =
          some node := h'
      have differs : ((name :: rest : Place) == place) = false := by simpa using same
      rw [List.lookup_append, List.lookup_cons, differs] at looked
      simp only [Option.or_none, List.lookup_nil] at looked
      exact .inl looked

theorem extends_addFile (d : Disk) (place : Place) : Extends d (d.addFile place) where
  toGrows := grows_addFile d place
  content := content_addFile d place
  locked := rfl
  sound sound := {
    valid := sound.valid.addFile place
    single := by
      intro a b id ha hb
      rcases node?_of_addFile ha with old | ⟨rfl, new⟩ <;>
        rcases node?_of_addFile hb with old' | ⟨rfl, new'⟩
      · exact sound.single a b id old old'
      · exact absurd (sound.valid a id old) (by cases new'; simp)
      · exact absurd (sound.valid b id old') (by cases new; simp)
      · rfl }

theorem extends_makeParent (d : Disk) (p : Path) : Extends d (d.makeParent p).2 :=
  makeParent_keeps (P := Extends d)
    (fun d' place before => before.trans (extends_addFolder d' place)) (.refl d)

theorem extends_openFile {d d' : Disk} {p : Path} {id : FileId}
    (h : d.openFile p = .ok (id, d')) : Extends d d' := by
  rcases (openFile_eq_ok h).2 with rfl | ⟨place, rfl, -⟩
  · exact .refl d'
  · exact extends_addFile d place

/-! ## Changes to one file -/

/-- Nothing but one file is written, locked or unlocked, and disks that are sound stay so. -/
structure Within (id : FileId) (d d' : Disk) : Prop extends Grows d d' where
  content : ∀ other, other ≠ id → d'.content other = d.content other
  isLocked : ∀ other, other ≠ id → d'.isLocked other = d.isLocked other
  sound : d.Sound → d'.Sound

theorem Extends.within {d d' : Disk} (h : Extends d d') (id : FileId) : Within id d d' where
  toGrows := h.toGrows
  content other _ := h.content other
  isLocked other _ := h.isLocked other
  sound := h.sound

namespace Within

variable {id : FileId}

theorem refl (d : Disk) : Within id d d := (Extends.refl d).within id

theorem trans {d₁ d₂ d₃ : Disk} (h : Within id d₁ d₂) (h' : Within id d₂ d₃) :
    Within id d₁ d₃ where
  toGrows := h.toGrows.trans h'.toGrows
  content other differs := (h'.content other differs).trans (h.content other differs)
  isLocked other differs := (h'.isLocked other differs).trans (h.isLocked other differs)
  sound sound := h'.sound (h.sound sound)

theorem lock (d : Disk) : Within id d (d.lock id) where
  toGrows := grows_lock d id
  content _ _ := rfl
  isLocked other differs := by simp [differs]
  sound sound := ⟨sound.valid, sound.single⟩

theorem unlock (d : Disk) : Within id d (d.unlock id) where
  toGrows := grows_unlock d id
  content _ _ := rfl
  isLocked other differs := by simp [differs]
  sound sound := ⟨sound.valid, sound.single⟩

theorem setContent (d : Disk) (bytes : Bytes) : Within id d (d.setContent id bytes) where
  toGrows := grows_setContent d id bytes
  content _ differs := content_setContent_of_ne d bytes differs
  isLocked _ _ := rfl
  sound sound := ⟨sound.valid.setContent id bytes, sound.single⟩

theorem overwrite (d : Disk) (bytes : Bytes) : Within id d (d.overwrite id bytes) :=
  setContent d _

theorem commit (d : Disk) (bytes : Bytes) : Within id d ((d.overwrite id bytes).unlock id) :=
  (overwrite d bytes).trans (unlock _)

end Within

/-! ## Reserving -/

theorem openFile_of_file? {d : Disk} {p : Path} {id : FileId} (h : d.file? p = .ok id) :
    d.openFile p = .ok (id, d) := by
  obtain ⟨parent, name, located, short, found⟩ := file?_eq_ok.1 h
  simp [openFile, located, short, found]

/-- The path leads to the file as soon as the folders that its spelling goes through are made. -/
def Names (d : Disk) (p : Path) (id : FileId) : Prop :=
  (d.makeParent p).1 = .ok () ∧ (d.makeParent p).2.file? p = .ok id

theorem names_of_file? {d : Disk} {p : Path} {id : FileId} (h : d.file? p = .ok id) :
    d.Names p id := by
  rw [Names, makeParent_of_file? h]
  exact ⟨rfl, h⟩

/-- A reservation of a file that is there is refused or taken by its lock alone. -/
theorem reserve_of_names {d : Disk} {p : Path} {id : FileId} (h : d.Names p id) :
    Output.reserve p d =
      if d.isLocked id then (.error (.pathLocked p), (d.makeParent p).2)
      else (.ok ⟨p, some id⟩, ((d.makeParent p).2.lock id).setContent id []) := by
  obtain ⟨made, found⟩ := h
  have locked := (extends_makeParent d p).isLocked id
  have split : d.makeParent p = (.ok (), (d.makeParent p).2) := Prod.ext made rfl
  rw [Output.reserve, split]
  dsimp only
  rw [openFile_of_file? found]
  dsimp only
  rw [locked]

/-- A reservation that fails writes nothing and locks nothing. -/
theorem extends_of_reserve_error {d d' : Disk} {p : Path} {e : Error}
    (h : Output.reserve p d = (.error e, d')) : Extends d d' := by
  have parents := extends_makeParent d p
  unfold Output.reserve at h
  split at h
  · next made =>
    cases h
    rwa [made] at parents
  next d₁ made =>
  rw [made] at parents
  split at h
  · cases h
    exact parents
  next opened =>
  split at h
  · cases h
    exact parents.trans (extends_openFile opened)
  · cases h

theorem error_of_reserve {d d' : Disk} {p : Path} {e : Error}
    (h : Output.reserve p d = (.error e, d')) :
    e = .pathLocked p ∨ ∃ path fault, e = .io path fault := by
  unfold Output.reserve at h
  split at h
  · cases h
    exact .inr ⟨_, _, rfl⟩
  split at h
  · cases h
    exact .inr ⟨_, _, rfl⟩
  split at h
  · cases h
    exact .inl rfl
  · cases h

/-- A reservation that succeeds empties and locks a file that the path leads to, and that nobody had
locked. -/
theorem reserve_ok_cases {d d' : Disk} {p : Path} {o : Output}
    (h : Output.reserve p d = (.ok o, d')) :
    ∃ d₁ id, Extends d d₁ ∧ d₁.file? p = .ok id ∧ d.isLocked id = false ∧ o = ⟨p, some id⟩ ∧
      d' = (d₁.lock id).setContent id [] := by
  have parents := extends_makeParent d p
  unfold Output.reserve at h
  split at h
  · cases h
  next d₁ made =>
  rw [made] at parents
  split at h
  · cases h
  next id d₂ opened =>
  have more := parents.trans (extends_openFile opened)
  split at h
  · cases h
  next unlocked =>
  cases h
  rw [more.isLocked, Bool.not_eq_true] at unlocked
  exact ⟨d₂, id, more, (openFile_eq_ok opened).1, unlocked, rfl, rfl⟩

theorem content_setContent_nil (d : Disk) (id : FileId) : (d.setContent id []).content id = [] := by
  rw [content, setContent, List.getD_eq_getElem?_getD, List.getElem?_set_self']
  rcases d.files[id]? with _ | bytes <;> rfl

/-- A reservation that succeeds changes no other file, and none that was locked. -/
theorem within_reserve {d d' : Disk} {p : Path} {o : Output}
    (h : Output.reserve p d = (.ok o, d')) :
    ∃ id, o = ⟨p, some id⟩ ∧ d'.file? p = .ok id ∧ Within id d d' ∧ d'.content id = [] ∧
      d.isLocked id = false := by
  obtain ⟨d₁, id, more, found, unlocked, rfl, rfl⟩ := reserve_ok_cases h
  have later : Within id d₁ ((d₁.lock id).setContent id []) :=
    (Within.lock d₁).trans (.setContent _ [])
  exact ⟨id, rfl, file?_of_grows later.toGrows found, (more.within id).trans later,
    content_setContent_nil _ id, unlocked⟩

end Emitter.Disk
