import Emitter.Output

/-! Names and files of a disk. A disk grows when no name is lost or leads elsewhere and no file
vanishes; paths then lead where they led. Making folders, opening files, writing and locking only
grow a disk, and a disk whose names all lead to files stays one. -/

namespace Emitter.Disk

structure Grows (d d' : Disk) : Prop where
  working : d'.working = d.working
  node : ∀ place node, d.node? place = some node → d'.node? place = some node
  files : d.files.length ≤ d'.files.length

theorem Grows.refl (d : Disk) : Grows d d := ⟨rfl, fun _ _ h => h, Nat.le_refl _⟩

theorem Grows.trans {d₁ d₂ d₃ : Disk} (h : Grows d₁ d₂) (h' : Grows d₂ d₃) : Grows d₁ d₃ where
  working := h'.working.trans h.working
  node place node found := h'.node place node (h.node place node found)
  files := Nat.le_trans h.files h'.files

/-- Each name leads to a file that is there. -/
def Valid (d : Disk) : Prop :=
  ∀ place id, d.node? place = some (.file id) → id < d.files.length

theorem valid_of_nodes {d : Disk}
    (h : ∀ entry ∈ d.nodes, ∀ id, entry.2 = .file id → id < d.files.length) : d.Valid := by
  intro place id found
  cases place with
  | nil => cases found
  | cons name rest =>
    obtain ⟨before, after, nodes, -⟩ := List.lookup_eq_some_iff.1 found
    exact h (name :: rest, .file id) (nodes ▸ List.mem_append_right _ List.mem_cons_self) id rfl

theorem valid_empty (working : Path) : (empty working).Valid := by
  refine valid_of_nodes fun entry mem id file => ?_
  obtain ⟨n, -, rfl⟩ := List.mem_map.1 mem
  cases file

/-! ## Where paths lead -/

theorem walk_of_grows {d d' : Disk} (grows : Grows d d') {place target : Place}
    {names : List String} (h : d.walk place names = .ok target) :
    d'.walk place names = .ok target := by
  induction names generalizing place with
  | nil => exact h
  | cons name rest ih =>
    rw [walk] at h ⊢
    split at h
    · next dot => rw [if_pos dot]; exact ih h
    next dot =>
    rw [if_neg dot]
    split at h
    · next dots => rw [if_pos dots]; exact ih h
    next dots =>
    rw [if_neg dots]
    split at h
    · cases h
    next short =>
    rw [if_neg short]
    split at h
    · cases h
    · cases h
    · next found =>
      rw [grows.node _ _ found]
      exact ih h

theorem locate_of_grows {d d' : Disk} (grows : Grows d d') {p : Path} {target : Target}
    (h : d.locate p = .ok target) : d'.locate p = .ok target := by
  have origin : d'.origin p = d.origin p := by rw [Disk.origin, Disk.origin, grows.working]
  unfold locate at h ⊢
  rw [origin]
  split at h
  · cases h
  next noNull =>
  rw [if_neg noNull]
  split at h
  · cases h
  next notEmpty =>
  rw [if_neg notEmpty]
  split at h
  · cases h
  next short =>
  rw [if_neg short]
  cases last : (places p).getLast? with
  | none =>
    rw [last] at h
    exact h
  | some last' =>
    rw [last] at h
    dsimp only at h ⊢
    cases walked : d.walk (d.origin p) (places p).dropLast with
    | error fault =>
      rw [walked] at h
      cases h
    | ok parent =>
      rw [walked] at h
      rw [walk_of_grows grows walked]
      exact h

/-- A file that is found stays where it is. -/
theorem file?_of_grows {d d' : Disk} (grows : Grows d d') {p : Path} {id : FileId}
    (h : d.file? p = .ok id) : d'.file? p = .ok id := by
  unfold file? at h ⊢
  cases located : d.locate p with
  | error fault =>
    rw [located] at h
    cases h
  | ok target =>
    rw [located] at h
    rw [locate_of_grows grows located]
    cases target with
    | folder place => cases h
    | name parent name slash =>
      dsimp only at h ⊢
      split at h
      · cases h
      next short =>
      rw [if_neg short]
      cases found : d.node? (parent ++ [name]) with
      | none =>
        rw [found] at h
        cases h
      | some node =>
        rw [found] at h
        rw [grows.node _ _ found]
        exact h

/-! ## Operations that grow a disk -/

theorem node?_addNode {d : Disk} {place other : Place} {node found : Node}
    (h : d.node? other = some found) : (d.addNode place node).node? other = some found := by
  cases other with
  | nil => exact h
  | cons name rest => exact (List.prefix_append _ _).lookup_eq_some h

/-- The new name leads to the new node, where there was none. -/
theorem node?_addNode_new {d : Disk} {place : Place} {node : Node} (h : d.node? place = none) :
    (d.addNode place node).node? place = some node := by
  cases place with
  | nil => cases h
  | cons name rest =>
    have looked : d.nodes.lookup (name :: rest) = none := h
    show (d.nodes ++ [(name :: rest, node)]).lookup (name :: rest) = some node
    rw [List.lookup_append, looked]
    simp

/-- A name that leads somewhere after a node was added is an old one or the new one. -/
theorem node?_of_addNode {d : Disk} {place other : Place} {node found : Node}
    (h : (d.addNode place node).node? other = some found) :
    d.node? other = some found ∨ found = node := by
  cases other with
  | nil => exact .inl h
  | cons name rest =>
    have looked : (d.nodes ++ [(place, node)]).lookup (name :: rest) = some found := h
    rw [List.lookup_append] at looked
    cases old : d.nodes.lookup (name :: rest) with
    | some node' =>
      rw [old] at looked
      exact .inl (old.trans looked)
    | none =>
      rw [old, Option.none_or] at looked
      right
      rw [List.lookup_cons] at looked
      split at looked
      · exact (Option.some.inj looked).symm
      · cases looked

theorem grows_addNode (d : Disk) (place : Place) (node : Node) : Grows d (d.addNode place node) :=
  ⟨rfl, fun _ _ found => node?_addNode found, Nat.le_refl _⟩

theorem Valid.addFolder {d : Disk} (valid : d.Valid) (place : Place) :
    (d.addNode place .folder).Valid := by
  intro other id found
  rcases node?_of_addNode found with old | new
  · exact valid other id old
  · cases new

theorem makeFolder_eq_ok {d d' : Disk} {p : Path} (h : d.makeFolder p = .ok d') :
    ∃ place, d' = d.addNode place .folder := by
  unfold makeFolder at h
  split at h
  · cases h
  · cases h
  · split at h
    · cases h
    · split at h
      · cases h
      · cases h
        exact ⟨_, rfl⟩

/-- What making each folder keeps, making a chain of them keeps, also where it fails. -/
theorem makeChain_keeps_of {P : Disk → Prop} {chain : List Path}
    (step : ∀ d d' p, p ∈ chain → d.makeFolder p = .ok d' → P d → P d') {d : Disk} (start : P d) :
    P (d.makeChain chain).2 := by
  induction chain generalizing d with
  | nil => exact start
  | cons p parents ih =>
    rw [makeChain]
    split
    · exact start
    split
    · next made => exact step _ _ p List.mem_cons_self made start
    · have inner := ih (fun d d' q mem => step d d' q (.tail _ mem)) start
      split
      · next failed =>
        rw [failed] at inner
        exact inner
      · next done =>
        rw [done] at inner
        split
        · next made => exact step _ _ p List.mem_cons_self made inner
        · exact inner
    · exact start

/-- What a chain of folders keeps, making the folder of a file keeps. -/
theorem makeParent_keeps_of {P : Disk → Prop} {p : Path} {d : Disk}
    (step : ∀ parent, p.parent? = some parent → P (d.makeFolders parent).2) (start : P d) :
    P (d.makeParent p).2 := by
  unfold makeParent
  split
  · next parent above =>
    split
    · exact start
    · have chain := step parent above
      split
      · next made =>
        rw [made] at chain
        exact chain
      · next made =>
        rw [made] at chain
        exact chain
  · exact start

theorem makeParent_keeps {P : Disk → Prop}
    (step : ∀ d place, P d → P (d.addNode place .folder)) {p : Path} {d : Disk} (start : P d) :
    P (d.makeParent p).2 := by
  refine makeParent_keeps_of (fun parent _ => makeChain_keeps_of ?_ start) start
  intro d d' q _ made before
  obtain ⟨place, rfl⟩ := makeFolder_eq_ok made
  exact step d place before

theorem grows_makeParent (d : Disk) (p : Path) : Grows d (d.makeParent p).2 :=
  makeParent_keeps (P := Grows d)
    (fun d' place grown => grown.trans (grows_addNode d' place .folder)) (Grows.refl d)

theorem Valid.makeParent {d : Disk} (valid : d.Valid) (p : Path) : (d.makeParent p).2.Valid :=
  makeParent_keeps (P := Valid) (fun _ place kept => kept.addFolder place) valid

/-- A new, empty file under a name that leads nowhere. -/
def addFile (d : Disk) (place : Place) : Disk :=
  { d.addNode place (.file d.files.length) with files := d.files ++ [[]] }

theorem grows_addFile (d : Disk) (place : Place) : Grows d (d.addFile place) where
  working := rfl
  node _ _ found := node?_addNode found
  files := by simp [addFile]

@[simp] theorem content_addFile (d : Disk) (place : Place) (id : FileId) :
    (d.addFile place).content id = d.content id := by
  have files : (d.addFile place).files = d.files ++ [[]] := rfl
  rw [content, content, files, List.getD_eq_getElem?_getD, List.getD_eq_getElem?_getD]
  rcases Nat.lt_trichotomy id d.files.length with old | new | beyond
  · rw [List.getElem?_append_left old]
  · rw [new, List.getElem?_concat_length, List.getElem?_eq_none (Nat.le_refl _)]
    rfl
  · rw [List.getElem?_eq_none (by simp; omega), List.getElem?_eq_none (Nat.le_of_lt beyond)]

theorem Valid.addFile {d : Disk} (valid : d.Valid) (place : Place) : (d.addFile place).Valid := by
  intro other id found
  have length : (d.addFile place).files.length = d.files.length + 1 := by simp [Disk.addFile]
  have found' : (d.addNode place (.file d.files.length)).node? other = some (.file id) := found
  rw [length]
  rcases node?_of_addNode found' with old | new
  · exact Nat.lt_succ_of_lt (valid other id old)
  · cases new
    exact Nat.lt_succ_self _

/-- Opening gives the file that the path then leads to. -/
theorem openFile_eq_ok {d d' : Disk} {p : Path} {id : FileId} (h : d.openFile p = .ok (id, d')) :
    d'.file? p = .ok id ∧
      (d' = d ∨ ∃ place, d' = d.addFile place ∧ id = d.files.length) := by
  unfold openFile at h
  cases located : d.locate p with
  | error fault =>
    rw [located] at h
    cases h
  | ok target =>
    rw [located] at h
    cases target with
    | folder place => cases h
    | name parent name slash =>
      cases slash with
      | true => cases h
      | false =>
        dsimp only at h
        split at h
        · cases h
        next short =>
        cases found : d.node? (parent ++ [name]) with
        | none =>
          rw [found] at h
          cases h
          have located' := locate_of_grows (grows_addFile d (parent ++ [name])) located
          have found' : (d.addFile (parent ++ [name])).node? (parent ++ [name]) =
              some (.file d.files.length) := node?_addNode_new found
          refine ⟨?_, .inr ⟨_, rfl, rfl⟩⟩
          show (d.addFile (parent ++ [name])).file? p = _
          rw [file?, located']
          dsimp only
          rw [if_neg short, found']
          rfl
        | some node =>
          rw [found] at h
          cases node with
          | folder => cases h
          | file id' =>
            cases h
            refine ⟨?_, .inl rfl⟩
            rw [file?, located]
            dsimp only
            rw [if_neg short, found]
            rfl

/-- A file that a path leads to is there. -/
theorem Valid.file? {d : Disk} (valid : d.Valid) {p : Path} {id : FileId}
    (h : d.file? p = .ok id) : id < d.files.length := by
  unfold Disk.file? at h
  split at h
  · cases h
  · cases h
  · split at h
    · cases h
    split at h
    · cases h
    · cases h
    · next found =>
      split at h
      · cases h
      · cases h
        exact valid _ _ found

/-! ## Contents and locks -/

theorem grows_setContent (d : Disk) (id : FileId) (bytes : Bytes) :
    Grows d (d.setContent id bytes) :=
  ⟨rfl, fun _ _ found => found, by simp [setContent]⟩

theorem grows_lock (d : Disk) (id : FileId) : Grows d (d.lock id) :=
  ⟨rfl, fun _ _ found => found, Nat.le_refl _⟩

theorem grows_unlock (d : Disk) (id : FileId) : Grows d (d.unlock id) :=
  ⟨rfl, fun _ _ found => found, Nat.le_refl _⟩

theorem grows_overwrite (d : Disk) (id : FileId) (bytes : Bytes) : Grows d (d.overwrite id bytes) :=
  grows_setContent d id _

theorem Valid.setContent {d : Disk} (valid : d.Valid) (id : FileId) (bytes : Bytes) :
    (d.setContent id bytes).Valid := by
  intro place other found
  exact Nat.lt_of_lt_of_le (valid place other found) (grows_setContent d id bytes).files

/-- Nothing of an empty file stands behind what is written over it. -/
theorem content_overwrite {d : Disk} {id : FileId} (file : id < d.files.length)
    (empty : d.content id = []) (bytes : Bytes) : (d.overwrite id bytes).content id = bytes := by
  rw [overwrite, content_setContent d id _ file, empty, List.drop_nil, List.append_nil]

/-! ## Reserving -/

/-- What a reservation gives: the file that the path leads to, empty and locked. -/
structure Reserved (d : Disk) (path : Path) (output : Output) (d' : Disk) (id : FileId) : Prop where
  output : output = ⟨path, some id⟩
  grows : Grows d d'
  valid : d'.Valid
  place : d'.file? path = .ok id
  empty : d'.content id = []
  locked : d'.isLocked id = true

theorem reserve_eq_ok {d d' : Disk} {path : Path} {output : Output} (valid : d.Valid)
    (h : Output.reserve path d = (.ok output, d')) : ∃ id, Reserved d path output d' id := by
  have grows₁ := grows_makeParent d path
  have valid₁ := valid.makeParent path
  unfold Output.reserve at h
  split at h
  · cases h
  next d₁ made =>
  rw [made] at grows₁ valid₁
  split at h
  · cases h
  next id d₂ opened =>
  split at h
  · cases h
  cases h
  obtain ⟨place, new⟩ := openFile_eq_ok opened
  obtain ⟨grows, valid₂⟩ : Grows d d₂ ∧ d₂.Valid := by
    rcases new with rfl | ⟨name, rfl, -⟩
    · exact ⟨grows₁, valid₁⟩
    · exact ⟨grows₁.trans (grows_addFile d₁ name), valid₁.addFile name⟩
  have file : id < (d₂.lock id).files.length := valid₂.file? place
  have grows' : Grows d₂ ((d₂.lock id).setContent id []) :=
    (grows_lock d₂ id).trans (grows_setContent _ id [])
  refine ⟨id, rfl, grows.trans grows', ?_, file?_of_grows grows' place, ?_, ?_⟩
  · exact Valid.setContent (d := d₂.lock id) valid₂ id []
  · exact content_setContent _ id [] file
  · show (d₂.lock id).isLocked id = true
    simp

end Emitter.Disk
