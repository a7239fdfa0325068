import Emitter.Proofs.Disk.Reservation
import Emitter.Proofs.Writer.Lifecycle
import Mathlib.Data.List.Nodup
import Mathlib.Logic.Relation

/-! Many parties at the files of one disk. Outputs and writers come and go in any order, under any
spelling of any path; the files that are locked are those that they hold, each held once. A
reservation of a held file is refused and writes nothing, and the file can be had again as soon as
its holder has let go of it. -/

namespace Emitter

/-- What can hold a file: an output alone, or that of a writer. -/
inductive Party where
  | output (o : Output)
  | writer (w : Writer)

namespace Party

def slot : Party → Output
  | output o => o
  | writer w => w.output

def held (party : Party) : Option FileId := party.slot.held

def path (party : Party) : Path := party.slot.path

/-- Something that a party does, what is left of the party, and the disk after it. Writes go through
or break off. -/
inductive Moves (d : Disk) : Party → Option Party → Disk → Prop
  | committed (o : Output) (text : String) (format : FileFormat) (broken : Option Break) :
    Moves d (output o) (some (output (o.commit text format d broken).2.1))
      (o.commit text format d broken).2.2
  | released (o : Output) : Moves d (output o) none (o.release d)
  | performed (w : Writer) (operation : Writer.Operation) :
    Moves d (writer w) (some (writer (w.perform d operation).2.1)) (w.perform d operation).2.2
  | dropped (w : Writer) (broken : Option Break) : Moves d (writer w) none (w.drop d broken)

/-- The moves with which a party is done: a commit, finishing with success or with a write that breaks
off, and being dropped. -/
inductive LetsGo (d : Disk) : Party → Option Party → Disk → Prop
  | committed (o : Output) (text : String) (format : FileFormat) (broken : Option Break) :
    LetsGo d (output o) (some (output (o.commit text format d broken).2.1))
      (o.commit text format d broken).2.2
  | released (o : Output) : LetsGo d (output o) none (o.release d)
  | finished (w : Writer) (h : (w.finish d).1 = .ok ()) :
    LetsGo d (writer w) (some (writer (w.finish d).2.1)) (w.finish d).2.2
  | brokenOff (w : Writer) (b : Break) (h : (w.finish d).1 = .ok ()) :
    LetsGo d (writer w) (some (writer (w.finish d (some b)).2.1)) (w.finish d (some b)).2.2
  | dropped (w : Writer) (broken : Option Break) : LetsGo d (writer w) none (w.drop d broken)

/-- The hold on a file ends: its lock goes, and before that its text may be written. -/
structure Frees (d : Disk) (id : FileId) (path : Path) (after : Option Party) (d' : Disk) : Prop where
  disk : d' = d.unlock id ∨ ∃ bytes, d' = (d.overwrite id bytes).unlock id
  held : after.bind held = none
  path : ∀ party ∈ after, party.path = path

end Party

/-! ## What a move does to the hold -/

namespace Party

/-- A party that stays is left with nothing in its hands. -/
theorem Frees.stay {d d' : Disk} {id : FileId} {path : Path} {party : Party}
    (disk : d' = d.unlock id ∨ ∃ bytes, d' = (d.overwrite id bytes).unlock id)
    (held : party.held = none) (here : party.path = path) : Frees d id path (some party) d' where
  disk := disk
  held := held
  path other same := by rw [← Option.mem_some_iff.1 same, here]

theorem Frees.go {d d' : Disk} {id : FileId} {path : Path}
    (disk : d' = d.unlock id ∨ ∃ bytes, d' = (d.overwrite id bytes).unlock id) :
    Frees d id path none d' :=
  ⟨disk, rfl, fun _ here => absurd here (Option.not_mem_none _)⟩

theorem frees_commit {o : Output} {id : FileId} (held : o.held = some id) (text : String)
    (format : FileFormat) (d : Disk) (broken : Option Break) :
    Frees d id o.path (some (output (o.commit text format d broken).2.1))
      (o.commit text format d broken).2.2 := by
  rw [Output.commit, held]
  cases broken with
  | none => exact .stay (.inr ⟨_, rfl⟩) rfl rfl
  | some b => exact .stay (.inr ⟨_, rfl⟩) rfl rfl

/-- A writer keeps its hold and the disk when it finishes, or frees its file. -/
theorem finish_keeps_or_frees (w : Writer) (d : Disk) (broken : Option Break) :
    ((w.finish d broken).1 ≠ .ok () ∧ (w.finish d broken).2.1.output = w.output ∧
        (w.finish d broken).2.2 = d) ∨
      ∃ id, w.output.held = some id ∧ Frees d id w.path
        (some (writer (w.finish d broken).2.1)) (w.finish d broken).2.2 := by
  refine (w.finish_cases d broken).imp_right ?_
  rintro ⟨id, written, held, finished, -⟩
  rw [finished]
  exact ⟨id, held, .stay (.inr ⟨written, rfl⟩) rfl rfl⟩

theorem frees_finish {w : Writer} {id : FileId} (held : w.output.held = some id) {d : Disk}
    (succeeds : (w.finish d).1 = .ok ()) (broken : Option Break) :
    Frees d id w.path (some (writer (w.finish d broken).2.1)) (w.finish d broken).2.2 := by
  have unfinished : w.finished = false := by
    by_contra finished
    rw [Bool.not_eq_false] at finished
    rw [Writer.finish_finished finished] at succeeds
    cases succeeds
  obtain ⟨accepts, closed⟩ := (Writer.finish_ok_iff_prepared unfinished held d).1 succeeds
  cases broken with
  | none =>
    rw [(Writer.Ends.written unfinished accepts closed held).finish_eq]
    exact .stay (.inr ⟨_, rfl⟩) rfl rfl
  | some b =>
    rw [(Writer.Ends.brokenOff unfinished accepts closed held).finish_eq]
    exact .stay (.inr ⟨_, rfl⟩) rfl rfl

theorem frees_drop {w : Writer} {id : FileId} (held : w.output.held = some id) (d : Disk)
    (broken : Option Break) : Frees d id w.path none (w.drop d broken) := by
  have dropped : w.drop d broken = (w.finish d broken).2.1.output.release (w.finish d broken).2.2 :=
    rfl
  refine .go ?_
  rcases w.finish_cases d broken with ⟨-, output, disk⟩ | ⟨id', written, held', finished, -⟩
  · left
    rw [dropped, output, disk, Output.release, held]
  · obtain rfl : id = id' := Option.some.inj (held.symm.trans held')
    right
    rw [dropped, finished]
    exact ⟨written, rfl⟩

theorem drop_free {w : Writer} (free : w.output.held = none) (d : Disk) (broken : Option Break) :
    w.drop d broken = d := by
  have dropped : w.drop d broken = (w.finish d broken).2.1.output.release (w.finish d broken).2.2 :=
    rfl
  rcases w.finish_cases d broken with ⟨-, output, disk⟩ | ⟨id, written, held, -⟩
  · rw [dropped, output, disk, Output.release, free]
  · cases free.symm.trans held

/-- A party that lets go frees the file that it holds. -/
theorem LetsGo.frees {d d' : Disk} {party : Party} {after : Option Party} {id : FileId}
    (h : LetsGo d party after d') (held : party.held = some id) :
    Frees d id party.path after d' := by
  rcases h with ⟨o, text, format, broken⟩ | o | ⟨w, succeeds⟩ | ⟨w, b, succeeds⟩ | ⟨w, broken⟩
  · exact frees_commit held text format d broken
  · have held : o.held = some id := held
    rw [Output.release, held]
    exact .go (.inl rfl)
  · exact frees_finish held succeeds none
  · exact frees_finish held succeeds (some b)
  · exact frees_drop held d broken

theorem Frees.grows {d d' : Disk} {id : FileId} {path : Path} {after : Option Party}
    (h : Frees d id path after d') : d.Grows d' := by
  rcases h.disk with rfl | ⟨bytes, rfl⟩
  · exact Disk.grows_unlock d id
  · exact (Disk.grows_overwrite d id bytes).trans (Disk.grows_unlock _ id)

theorem Frees.isLocked {d d' : Disk} {id : FileId} {path : Path} {after : Option Party}
    (h : Frees d id path after d') (other : FileId) :
    d'.isLocked other = (other != id && d.isLocked other) := by
  rcases h.disk with rfl | ⟨bytes, rfl⟩
  · exact Disk.isLocked_unlock d id other
  · exact Disk.isLocked_unlock (d.overwrite id bytes) id other

/-- What is left of a party that keeps what it has. -/
structure Keeps (d : Disk) (party : Party) (after : Option Party) (d' : Disk) : Prop where
  disk : d' = d
  held : after.bind held = party.held
  path : ∀ p ∈ after, p.path = party.path

theorem Keeps.stay {d : Disk} {party party' : Party} (same : party'.slot = party.slot) :
    Keeps d party (some party') d where
  disk := rfl
  held := congrArg Output.held same
  path other here := by rw [← Option.mem_some_iff.1 here, Party.path, same, Party.path]

theorem Keeps.go {d : Disk} {party : Party} (free : party.held = none) : Keeps d party none d :=
  ⟨rfl, free.symm, fun _ here => absurd here (Option.not_mem_none _)⟩

theorem moves_perform (w : Writer) (d : Disk) (operation : Writer.Operation) :
    Keeps d (writer w) (some (writer (w.perform d operation).2.1)) (w.perform d operation).2.2 ∨
      ∃ id, w.output.held = some id ∧ Frees d id w.path
        (some (writer (w.perform d operation).2.1)) (w.perform d operation).2.2 := by
  rcases w.perform_frame d operation with ⟨broken, rfl⟩ | ⟨draft, dialect, performed⟩
  · rw [Writer.perform]
    refine (finish_keeps_or_frees w d broken).imp_left ?_
    rintro ⟨-, output, disk⟩
    rw [disk]
    exact .stay output
  · rw [performed]
    exact .inl (.stay rfl)

/-- Whatever a party does, it keeps its hold and the disk, or frees the file that it holds. -/
theorem Moves.cases {d d' : Disk} {party : Party} {after : Option Party}
    (h : Moves d party after d') :
    Keeps d party after d' ∨ ∃ id, party.held = some id ∧ Frees d id party.path after d' := by
  rcases h with ⟨o, text, format, broken⟩ | o | ⟨w, operation⟩ | ⟨w, broken⟩
  · rcases held : o.held with _ | id
    · rw [Output.commit, held]
      exact .inl (.stay rfl)
    · exact .inr ⟨id, held, frees_commit held text format d broken⟩
  · rcases held : o.held with _ | id
    · rw [Output.release, held]
      exact .inl (.go held)
    · exact .inr ⟨id, held, (LetsGo.released o).frees held⟩
  · exact moves_perform w d operation
  · rcases held : w.output.held with _ | id
    · rw [drop_free held]
      exact .inl (.go held)
    · exact .inr ⟨id, held, frees_drop held d broken⟩

end Party

/-! ## Parties at one disk -/

/-- The parties are in the order in which they came. -/
structure World where
  parties : List Party
  disk : Disk

namespace World

def held (w : World) : List FileId := w.parties.filterMap Party.held

/-- What can happen next. Parties come, or try to in vain, move, and go. Others may do anything to
the disk but lock files and remove files that are held. -/
inductive Step : World → World → Prop
  | reserved {w : World} {path : Path} {o : Output} {d : Disk}
    (h : Output.reserve path w.disk = (.ok o, d)) : Step w ⟨w.parties ++ [.output o], d⟩
  | created {w : World} {path : Path} {settings : Settings} {dialect : Dialect} {writer : Writer}
    {d : Disk} (h : Writer.create path settings dialect w.disk = (.ok writer, d)) :
    Step w ⟨w.parties ++ [.writer writer], d⟩
  | refused {w : World} {path : Path} {e : Error} {d : Disk}
    (h : Output.reserve path w.disk = (.error e, d)) : Step w ⟨w.parties, d⟩
  | notCreated {w : World} {path : Path} {settings : Settings} {dialect : Dialect} {e : Error}
    {d : Disk} (h : Writer.create path settings dialect w.disk = (.error e, d)) :
    Step w ⟨w.parties, d⟩
  | moved {before rest : List Party} {party : Party} {after : Option Party} {d d' : Disk}
    (h : Party.Moves d party after d') :
    Step ⟨before ++ party :: rest, d⟩ ⟨before ++ (after.toList ++ rest), d'⟩
  | elsewhere {w : World} {d : Disk} (locks : d.locked = w.disk.locked)
    (kept : ∀ party ∈ w.parties, ∀ id, party.held = some id →
      w.disk.file? party.path = .ok id → d.file? party.path = .ok id) : Step w ⟨w.parties, d⟩

/-- Each file that is locked is held by one party, whose path leads to it. -/
structure Exclusive (w : World) : Prop where
  once : w.held.Nodup
  locked : ∀ id, w.disk.isLocked id = true ↔ id ∈ w.held
  named : ∀ party ∈ w.parties, ∀ id, party.held = some id → w.disk.file? party.path = .ok id

theorem exclusive_start {d : Disk} (unlocked : d.locked = []) : Exclusive ⟨[], d⟩ where
  once := List.nodup_nil
  locked id := by simp [Disk.isLocked, unlocked, held]
  named := by simp

theorem Exclusive.extends {w : World} (exclusive : w.Exclusive) {d : Disk}
    (more : w.disk.Extends d) : Exclusive ⟨w.parties, d⟩ where
  once := exclusive.once
  locked id := by
    rw [more.isLocked]
    exact exclusive.locked id
  named party mem id holds := Disk.file?_of_grows more.toGrows (exclusive.named party mem id holds)

/-- A party comes with a file that nobody had locked. -/
theorem Exclusive.come {w : World} (exclusive : w.Exclusive) {path : Path} {o : Output} {d : Disk}
    (reserved : Output.reserve path w.disk = (.ok o, d)) {party : Party} (new : party.slot = o) :
    Exclusive ⟨w.parties ++ [party], d⟩ := by
  obtain ⟨d₁, id, more, found, unlocked, rfl, rfl⟩ := Disk.reserve_ok_cases reserved
  have before := exclusive.extends more
  have holds : party.held = some id := congrArg Output.held new
  have all : held ⟨w.parties ++ [party], (d₁.lock id).setContent id []⟩ = w.held ++ [id] := by
    simp [held, holds]
  have free : id ∉ w.held := fun mem => by
    rw [(exclusive.locked id).2 mem] at unlocked
    cases unlocked
  have grows : d₁.Grows ((d₁.lock id).setContent id []) :=
    (Disk.grows_lock d₁ id).trans (Disk.grows_setContent _ id [])
  refine ⟨?_, fun other => ?_, fun holder mem other has => ?_⟩
  · rw [all]
    refine List.nodup_append.2 ⟨exclusive.once, by simp, fun other mem new' single => ?_⟩
    rintro rfl
    exact free (List.mem_singleton.1 single ▸ mem)
  · have locked : ((d₁.lock id).setContent id []).isLocked other =
        (other == id || d₁.isLocked other) := Disk.isLocked_lock d₁ id other
    rw [all, locked, Bool.or_eq_true, before.locked other]
    simp [held, or_comm]
  · rcases List.mem_append.1 mem with old | new'
    · exact Disk.file?_of_grows grows (before.named holder old other has)
    · obtain rfl := List.mem_singleton.1 new'
      obtain rfl : id = other := Option.some.inj (holds.symm.trans has)
      rw [Party.path, new]
      exact Disk.file?_of_grows grows found

theorem held_moved (before rest : List Party) (after : Option Party) (d : Disk) :
    held ⟨before ++ (after.toList ++ rest), d⟩ =
      before.filterMap Party.held ++ ((after.bind Party.held).toList ++
        rest.filterMap Party.held) := by
  rcases after with _ | party
  · simp [held]
  · rcases holds : party.held with _ | id <;> simp [held, holds]

theorem Exclusive.move {before rest : List Party} {party : Party} {after : Option Party}
    {d d' : Disk} (exclusive : Exclusive ⟨before ++ party :: rest, d⟩)
    (h : Party.Moves d party after d') : Exclusive ⟨before ++ (after.toList ++ rest), d'⟩ := by
  have all : held ⟨before ++ party :: rest, d⟩ =
      before.filterMap Party.held ++ (party.held.toList ++ rest.filterMap Party.held) :=
    held_moved before rest (some party) d
  have others : ∀ p ∈ before ++ (after.toList ++ rest),
      p ∈ after ∨ p ∈ before ++ party :: rest := by
    intro p
    simp only [List.mem_append, Option.mem_toList, List.mem_cons]
    tauto
  rcases h.cases with keeps | ⟨id, holds, frees⟩
  · have same : held ⟨before ++ (after.toList ++ rest), d'⟩ =
        held ⟨before ++ party :: rest, d⟩ := by
      rw [held_moved, keeps.held, all]
    obtain rfl := keeps.disk
    refine ⟨same ▸ exclusive.once, fun id => same ▸ exclusive.locked id, ?_⟩
    intro p mem id has
    rcases others p mem with here | old
    · have party' : party.held = some id := by rw [← keeps.held, here]; exact has
      rw [keeps.path p here]
      exact exclusive.named party (by simp) id party'
    · exact exclusive.named p old id has
  · have once := exclusive.once
    rw [all, holds] at once
    have left : held ⟨before ++ (after.toList ++ rest), d'⟩ =
        before.filterMap Party.held ++ rest.filterMap Party.held := by
      rw [held_moved, frees.held]
      rfl
    refine ⟨?_, fun other => ?_, fun p mem other has => ?_⟩
    · rw [left]
      exact once.sublist (by simp)
    · have locked := exclusive.locked other
      rw [all, holds] at locked
      have fresh : id ∉ before.filterMap Party.held ++ rest.filterMap Party.held :=
        (List.nodup_cons.1 (List.nodup_middle.1 once)).1
      rw [left, frees.isLocked, Bool.and_eq_true, locked, bne_iff_ne]
      constructor
      · rintro ⟨other', mem⟩
        simpa [other'] using mem
      · intro mem
        refine ⟨fun same => fresh (same ▸ mem), ?_⟩
        rcases List.mem_append.1 mem with left | right
        · exact List.mem_append_left _ left
        · exact List.mem_append_right _ (.tail _ right)
    · rcases others p mem with here | old
      · have none : after.bind Party.held = some other := by rw [here]; exact has
        rw [frees.held] at none
        cases none
      · exact Disk.file?_of_grows frees.grows (exclusive.named p old other has)

theorem Exclusive.step {w w' : World} (exclusive : w.Exclusive) (h : Step w w') :
    w'.Exclusive := by
  cases h with
  | reserved h => exact exclusive.come h rfl
  | created h => exact exclusive.come (Writer.reserve_of_create_ok h) rfl
  | refused h => exact exclusive.extends (Disk.extends_of_reserve_error h)
  | notCreated h =>
    exact exclusive.extends (Disk.extends_of_reserve_error (Writer.reserve_of_create_error h))
  | moved h => exact exclusive.move h
  | @elsewhere _ d locks kept =>
    have same : ∀ id, d.isLocked id = w.disk.isLocked id := by simp [Disk.isLocked, locks]
    exact ⟨exclusive.once, fun id => by rw [same]; exact exclusive.locked id,
      fun party mem id holds => kept party mem id holds (exclusive.named party mem id holds)⟩

/-- From a disk where nothing is locked, through any steps of any parties. -/
def Reachable (d₀ : Disk) (w : World) : Prop := Relation.ReflTransGen Step ⟨[], d₀⟩ w

theorem exclusive_of_reachable {d₀ : Disk} {w : World} (unlocked : d₀.locked = [])
    (h : Reachable d₀ w) : w.Exclusive := by
  induction h with
  | refl => exact exclusive_start unlocked
  | tail _ step ih => exact ih.step step

/-- No two parties hold one file. While a file is held its reservation, and the creation of a writer
for it, are refused under every spelling of its path, and nothing is written. As soon as the holder
has committed or is dropped, every spelling reserves the file, and empties it. -/
theorem mutual_exclusion {d₀ : Disk} {w : World} (unlocked : d₀.locked = [])
    (h : Reachable d₀ w) :
    w.held.Nodup ∧
    (∀ party ∈ w.parties, ∀ id, party.held = some id → w.disk.file? party.path = .ok id) ∧
    (∀ id ∈ w.held, ∀ path, w.disk.Names path id → ∃ d, w.disk.Extends d ∧
      Output.reserve path w.disk = (.error (.pathLocked path), d) ∧
      ∀ settings dialect,
        Writer.create path settings dialect w.disk = (.error (.pathLocked path), d)) ∧
    (∀ party ∈ w.parties, ∀ id, party.held = some id → ∀ after d,
      Party.LetsGo w.disk party after d →
      after.bind Party.held = none ∧ d.file? party.path = .ok id ∧
      ∀ path, d.Names path id → ∃ d', Output.reserve path d = (.ok ⟨path, some id⟩, d') ∧
        d'.content id = [] ∧ ∀ other, other ≠ id → d'.content other = d.content other) := by
  have exclusive := exclusive_of_reachable unlocked h
  refine ⟨exclusive.once, exclusive.named, fun id holds path names => ?_,
    fun party mem id holds after d letsGo => ?_⟩
  · have locked := (exclusive.locked id).2 holds
    have refused := Disk.reserve_of_names names
    rw [if_pos locked] at refused
    refine ⟨_, Disk.extends_makeParent w.disk path, refused, fun settings dialect => ?_⟩
    rw [Writer.create, refused]
  · have frees := letsGo.frees holds
    refine ⟨frees.held, Disk.file?_of_grows frees.grows (exclusive.named party mem id holds),
      fun path names => ?_⟩
    have free : d.isLocked id = false := by rw [frees.isLocked]; simp
    have reserved := Disk.reserve_of_names names
    rw [if_neg (by simp [free])] at reserved
    refine ⟨_, reserved, Disk.content_setContent_nil _ id, fun other differs => ?_⟩
    rw [Disk.content_setContent_of_ne _ _ differs]
    exact (Disk.extends_makeParent d path).content other

/-- An output holds "a" and is released, between reservations under two other spellings. -/
theorem mutual_exclusion_spellings :
    let d : Disk := ⟨⟨"/w"⟩, [(["w"], .folder), (["w", "a"], .file 0)], [[]], [0]⟩
    let w : World := ⟨[.output ⟨⟨"a"⟩, some 0⟩], d⟩
    ((Disk.empty ⟨"/w"⟩).locked = [] ∧ Reachable (.empty ⟨"/w"⟩) w) ∧
      (∃ d', d.Extends d' ∧ Output.reserve ⟨"b/../a"⟩ d = (.error (.pathLocked ⟨"b/../a"⟩), d')) ∧
      ∃ d', Output.reserve ⟨"./a"⟩ (d.unlock 0) = (.ok ⟨⟨"./a"⟩, some 0⟩, d') ∧
        d'.content 0 = [] := by
  intro d w
  have first : Output.reserve ⟨"a"⟩ (.empty ⟨"/w"⟩) = (.ok ⟨⟨"a"⟩, some 0⟩, d) := rfl
  have reachable : Reachable (.empty ⟨"/w"⟩) w := .single (.reserved first)
  have through : Disk.Names ⟨⟨"/w"⟩, [(["w"], .folder), (["w", "a"], .file 0)], [[]], [0]⟩
      ⟨"b/../a"⟩ 0 := ⟨rfl, rfl⟩
  have dotted : Disk.Names ⟨⟨"/w"⟩, [(["w"], .folder), (["w", "a"], .file 0)], [[]], []⟩
      ⟨"./a"⟩ 0 := ⟨rfl, rfl⟩
  obtain ⟨-, -, refused, again⟩ := mutual_exclusion rfl reachable
  obtain ⟨d', more, locked, -⟩ := refused 0 (by decide) ⟨"b/../a"⟩ through
  obtain ⟨-, -, reserves⟩ := again _ List.mem_cons_self 0 rfl none (d.unlock 0) (.released _)
  obtain ⟨d'', reserved, empty, -⟩ := reserves ⟨"./a"⟩ dotted
  exact ⟨⟨rfl, reachable⟩, ⟨d', more, locked⟩, d'', reserved, empty⟩

end World

end Emitter
