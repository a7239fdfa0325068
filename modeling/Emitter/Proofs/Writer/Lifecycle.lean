import Emitter.Proofs.Disk.Files
import Emitter.Proofs.Scope.Invariant
import Emitter.Proofs.Text.Lines

/-! The life of a writer that is alone with its file. Only finishing touches the file, and only the
one time that it gets as far as the write; until then the file is empty and locked, from then on it
stays what it is, which is the whole text unless the write broke off. -/

namespace Emitter

/-- What others may do to a disk around a file that is not theirs: anything but write it, take away
its name or its lock. -/
structure Disk.Spares (path : Path) (id : FileId) (d d' : Disk) : Prop where
  place : d.file? path = .ok id → d'.file? path = .ok id
  content : d'.content id = d.content id
  locked : d.isLocked id = true → d'.isLocked id = true
  files : d.files.length ≤ d'.files.length

theorem Disk.Grows.spares {path : Path} {id : FileId} {d d' : Disk} (grows : d.Grows d')
    (content : d'.content id = d.content id)
    (locked : d.isLocked id = true → d'.isLocked id = true) : d.Spares path id d' :=
  ⟨Disk.file?_of_grows grows, content, locked, grows.files⟩

namespace Writer

/-! ## After finishing -/

section Finished

variable {w : Writer} (finished : w.finished = true)
include finished

theorem edited_finished (edit : Edit) : w.edited edit = .error .writeAfterFinish := by
  rw [edited_eq]
  split
  · exact if_pos finished
  · exact if_pos finished

theorem opened_finished (opening : Opening) : w.opened opening = .error .writeAfterFinish := by
  have edit : ∀ f, w.edit f = .error .writeAfterFinish := fun f => if_pos finished
  have editFresh : ∀ operation f, w.editFresh operation f = .error .writeAfterFinish :=
    fun operation f => if_pos finished
  cases opening with
  | indent start closing => rw [opened, openIndent, edit]; rfl
  | left start closing => rw [opened, openLeft, editFresh]; rfl
  | linePrefix text => exact if_pos finished
  | block => rw [opened, openBlock, openIndent, edit]; rfl
  | disabled message => rw [opened, openDisabled, separate, edit]; rfl

theorem perform_finished (d : Disk) (operation : Operation) :
    (w.perform d operation).2.1.finished = true ∧ (w.perform d operation).2.2 = d := by
  rcases perform_frame w d operation with ⟨broken, rfl⟩ | ⟨draft, dialect, performed⟩
  · rw [perform, finish_finished finished]
    exact ⟨finished, rfl⟩
  · rw [performed]
    exact ⟨finished, rfl⟩

end Finished

/-- What a writer still does when its file is written: nothing. -/
structure Final (path : Path) (w : Writer) (d : Disk) : Prop where
  finished : w.finished = true
  edited : ∀ edit, w.edited edit = .error .writeAfterFinish
  opened : ∀ opening, w.opened opening = .error .writeAfterFinish
  finish : ∀ broken, w.finish d broken = (.error (.alreadyFinished path), w, d)
  drop : ∀ broken, w.drop d broken = d

/-- What a writer and the disk have to do with each other. -/
structure Holds (path : Path) (settings : Settings) (id : FileId) (w : Writer) (d : Disk) :
    Prop where
  named : w.path = path
  setup : w.settings = settings
  place : d.file? path = .ok id
  file : id < d.files.length
  held : w.output.held = if w.finished then none else some id
  empty : w.finished = false → d.content id = []
  locked : w.finished = false → d.isLocked id = true

/-- A writer is made exactly where its file can be reserved. -/
theorem create_eq (path : Path) (settings : Settings) (dialect : Dialect) (d : Disk) :
    ((create path settings dialect d).1.map Writer.output, (create path settings dialect d).2) =
      Output.reserve path d := by
  unfold create
  dsimp only
  split <;> next reserved => rw [reserved]; rfl

theorem reserve_of_create_ok {path : Path} {settings : Settings} {dialect : Dialect} {d d' : Disk}
    {w : Writer} (h : create path settings dialect d = (.ok w, d')) :
    Output.reserve path d = (.ok w.output, d') := by
  rw [← create_eq path settings dialect d, h]
  rfl

theorem reserve_of_create_error {path : Path} {settings : Settings} {dialect : Dialect}
    {d d' : Disk} {e : Error} (h : create path settings dialect d = (.error e, d')) :
    Output.reserve path d = (.error e, d') := by
  rw [← create_eq path settings dialect d, h]
  rfl

theorem holds_create {path : Path} {settings : Settings} {dialect : Dialect} {d d' : Disk}
    {w : Writer} (valid : d.Valid) (h : create path settings dialect d = (.ok w, d')) :
    ∃ id, Holds path settings id w d' := by
  unfold create at h
  dsimp only at h
  split at h
  · cases h
  next output d₁ reserved =>
  cases h
  obtain ⟨id, reserved⟩ := Disk.reserve_eq_ok valid reserved
  obtain rfl := reserved.output
  exact ⟨id, rfl, rfl, reserved.place, reserved.valid.file? reserved.place, rfl,
    fun _ => reserved.empty, fun _ => reserved.locked⟩

section Holds

variable {path : Path} {settings : Settings} {id : FileId} {w : Writer} {d : Disk}
  (holds : Holds path settings id w d)
include holds

theorem Holds.wait {d' : Disk} (spares : Disk.Spares path id d d') :
    Holds path settings id w d' where
  named := holds.named
  setup := holds.setup
  place := spares.place holds.place
  file := Nat.lt_of_lt_of_le holds.file spares.files
  held := holds.held
  empty unfinished := spares.content.trans (holds.empty unfinished)
  locked unfinished := spares.locked (holds.locked unfinished)

theorem Holds.held_of_unfinished (unfinished : w.finished = false) : w.output.held = some id := by
  rw [holds.held, unfinished]
  rfl

/-- Finishing leaves the disk alone, whether or not a write would go through, or it gets as far as the
write. -/
theorem Holds.finish_cases (unfinished : w.finished = false) :
    (∃ e, ∀ broken, w.finish d broken = (.error e, w.prepared, d)) ∨
      w.finish d = (.ok (), w.committed, (d.overwrite id w.bytes).unlock id) ∧
        ∀ b, w.finish d (some b) = (.error (.io path b.fault), w.committed,
          (d.overwrite id (w.bytes.take b.written)).unlock id) := by
  have held := holds.held_of_unfinished unfinished
  cases accepts : w.beforeFinish.1 with
  | error e => exact .inl ⟨e, fun broken => (Ends.refused unfinished accepts).finish_eq⟩
  | ok =>
    by_cases closed : w.prepared.Closed
    · refine .inr ⟨(Ends.written unfinished accepts closed held).finish_eq, fun b => ?_⟩
      rw [(Ends.brokenOff unfinished accepts closed held).finish_eq, holds.named]
    · exact .inl ⟨_, finish_unclosed unfinished accepts closed d⟩

theorem Holds.content_commit (unfinished : w.finished = false) (bytes : Bytes) :
    ((d.overwrite id bytes).unlock id).content id = bytes :=
  Disk.content_overwrite holds.file (holds.empty unfinished) bytes

/-- Whatever the hook does, it leaves the file and the setup alone. -/
theorem Holds.redraft (draft : Draft) (dialect : Dialect) :
    Holds path settings id { w with draft, dialect } d :=
  ⟨holds.named, holds.setup, holds.place, holds.file, holds.held, holds.empty, holds.locked⟩

theorem Holds.prepared : Holds path settings id w.prepared d := by
  obtain ⟨draft, state, frame⟩ := prepared_frame w
  rw [frame]
  exact holds.redraft draft _

theorem Holds.committed (bytes : Bytes) :
    Holds path settings id w.committed ((d.overwrite id bytes).unlock id) where
  named := holds.named
  setup := holds.prepared.setup
  place := Disk.file?_of_grows
    ((Disk.grows_overwrite d id bytes).trans (Disk.grows_unlock _ id)) holds.place
  file := Nat.lt_of_lt_of_le holds.file (Disk.grows_overwrite d id bytes).files
  held := rfl
  empty := nofun
  locked := nofun

theorem Holds.finish (broken : Option Break) :
    Holds path settings id (w.finish d broken).2.1 (w.finish d broken).2.2 := by
  cases finished : w.finished with
  | true =>
    rw [finish_finished finished]
    exact holds
  | false =>
    rcases holds.finish_cases finished with ⟨e, failed⟩ | ⟨whole, part⟩
    · rw [failed]
      exact holds.prepared
    cases broken with
    | none =>
      rw [whole]
      exact holds.committed _
    | some b =>
      rw [part]
      exact holds.committed _

theorem Holds.perform (operation : Operation) :
    Holds path settings id (w.perform d operation).2.1 (w.perform d operation).2.2 := by
  rcases perform_frame w d operation with ⟨broken, rfl⟩ | ⟨draft, dialect, performed⟩
  · exact holds.finish broken
  · rw [performed]
    exact holds.redraft draft dialect

/-- Dropping releases what is still held after finishing. -/
theorem Holds.drop_eq (broken : Option Break) :
    w.drop d broken = if (w.finish d broken).2.1.finished then (w.finish d broken).2.2
      else (w.finish d broken).2.2.unlock id := by
  show (w.finish d broken).2.1.output.release (w.finish d broken).2.2 = _
  rw [Output.release, (holds.finish broken).held]
  cases (w.finish d broken).2.1.finished <;> rfl

/-- Dropping lets go of the file, which is whole or empty. -/
theorem Holds.drop (unfinished : w.finished = false) :
    ((w.finish d).1 = .ok () → (w.drop d).content id = w.bytes) ∧
      ((w.finish d).1 ≠ .ok () → (w.drop d).content id = []) ∧
      (w.drop d).isLocked id = false ∧ (w.drop d).file? path = .ok id := by
  rw [holds.drop_eq]
  rcases holds.finish_cases unfinished with ⟨e, failed⟩ | ⟨whole, -⟩
  · have still : w.prepared.finished = false := by
      obtain ⟨draft, state, frame⟩ := prepared_frame w
      rw [frame]
      exact unfinished
    rw [failed, still]
    refine ⟨nofun, fun _ => holds.empty unfinished, by simp, ?_⟩
    exact Disk.file?_of_grows (Disk.grows_unlock d id) holds.place
  · rw [whole]
    have released : ((d.overwrite id w.bytes).unlock id).isLocked id = false := by simp
    exact ⟨fun _ => holds.content_commit unfinished _, fun failed => absurd rfl failed, released,
      (holds.committed _).place⟩

theorem Holds.final (finished : w.finished = true) : Final path w d where
  finished := finished
  edited := edited_finished finished
  opened := opened_finished finished
  finish broken := by rw [finish_finished finished, holds.named]
  drop broken := by
    rw [holds.drop_eq, finish_finished finished]
    exact if_pos finished

/-- Finished or not, a writer fails to finish in one way, or it gets as far as the write. -/
theorem Holds.finish_fails_or_writes :
    (∃ e w', ∀ broken, w.finish d broken = (.error e, w', d)) ∨
      w.finished = false ∧
        w.finish d = (.ok (), w.committed, (d.overwrite id w.bytes).unlock id) ∧
        ∀ b, w.finish d (some b) = (.error (.io path b.fault), w.committed,
          (d.overwrite id (w.bytes.take b.written)).unlock id) := by
  cases finished : w.finished with
  | true => exact .inl ⟨_, w, finish_finished finished d⟩
  | false =>
    rcases holds.finish_cases finished with ⟨e, failed⟩ | writes
    · exact .inl ⟨e, _, failed⟩
    · exact .inr ⟨rfl, writes⟩

/-- Where finishing succeeds the writer was not finished, and the file is whole. -/
theorem Holds.finish_ok (succeeds : (w.finish d).1 = .ok ()) :
    w.finished = false ∧
      w.finish d = (.ok (), w.committed, (d.overwrite id w.bytes).unlock id) := by
  rcases holds.finish_fails_or_writes with ⟨e, w', failed⟩ | ⟨unfinished, whole, -⟩
  · rw [failed] at succeeds
    cases succeeds
  · exact ⟨unfinished, whole⟩

/-- A write that breaks off is no success. -/
theorem Holds.unbroken_of_ok {broken : Option Break} (succeeds : (w.finish d broken).1 = .ok ()) :
    broken = none := by
  cases broken with
  | none => rfl
  | some b =>
    rcases holds.finish_fails_or_writes with ⟨e, w', failed⟩ | ⟨-, -, part⟩
    · rw [failed] at succeeds
      cases succeeds
    · rw [part] at succeeds
      cases succeeds

end Holds

/-- What is left of a write that breaks off: a beginning of the text, in a file that is let go of by a
writer that is finished. -/
structure BrokenOff (path : Path) (id : FileId) (w : Writer) (d : Disk) (b : Break) : Prop where
  error : (w.finish d (some b)).1 = .error (.io path b.fault)
  finished : (w.finish d (some b)).2.1.finished = true
  content : (w.finish d (some b)).2.2.content id = ((w.finish d).2.2.content id).take b.written
  released : (w.finish d (some b)).2.2.isLocked id = false
  drop : w.drop d (some b) = (w.finish d (some b)).2.2

theorem Holds.brokenOff {path : Path} {settings : Settings} {id : FileId} {w : Writer} {d : Disk}
    (holds : Holds path settings id w d) (succeeds : (w.finish d).1 = .ok ()) (b : Break) :
    BrokenOff path id w d b := by
  rcases holds.finish_fails_or_writes with ⟨e, w', failed⟩ | ⟨unfinished, whole, part⟩
  · rw [failed] at succeeds
    cases succeeds
  have content := holds.content_commit unfinished
  constructor
  · rw [part]
  · rw [part]
    rfl
  · rw [part, whole, content, content]
  · rw [part]
    simp
  · rw [holds.drop_eq, part]
    rfl

end Writer

end Emitter
