import Emitter.Proofs.Disk.Removal
import Emitter.Proofs.Output.Exclusion
import Emitter.Proofs.Session.Bookkeeping

/-! The files of a session. What a writer of the session has put in its file stays there while others
are opened, used and dropped, as each of them touches its own file only; and cleaning up removes none
of them. The log that is written at the end takes its own path, whoever has written there before. -/

namespace Emitter

/-! ## Writers change their own file only -/

namespace Disk

theorem Within.spares {id other : FileId} {d d' : Disk} (h : d.Within id d') (differs : other ≠ id)
    (path : Path) : d.Spares path other d' :=
  h.toGrows.spares (h.content other differs) fun locked => by rwa [h.isLocked other differs]

theorem Extends.spares {d d' : Disk} (h : d.Extends d') (path : Path) (id : FileId) :
    d.Spares path id d' :=
  h.toGrows.spares (h.content id) fun locked => by rwa [h.isLocked id]

/-- The file that a path leads to in the end is not one that another path has led to. -/
theorem Within.ne_file? {id : FileId} {d d' : Disk} (h : d.Within id d') (sound : d.Sound)
    {p q : Path} (hp : p.Normal) (hq : q.Normal) (differs : q ≠ p) (found : d'.file? p = .ok id) :
    d.file? q ≠ .ok id := fun other =>
  (h.sound sound).file?_ne hq hp differs (file?_of_grows h.toGrows other) found rfl

end Disk

theorem Party.Frees.within {d d' : Disk} {id : FileId} {path : Path} {after : Option Party}
    (h : Frees d id path after d') : d.Within id d' := by
  rcases h.disk with rfl | ⟨bytes, rfl⟩
  · exact .unlock d
  · exact .commit d bytes

namespace Writer

section Holds

variable {path : Path} {settings : Settings} {id : FileId} {w : Writer} {d : Disk}
  (holds : Holds path settings id w d)
include holds

theorem Holds.eq_of_held {other : FileId} (held : w.output.held = some other) : other = id := by
  rw [holds.held] at held
  split at held
  · cases held
  · exact (Option.some.inj held).symm

theorem Holds.within_perform (operation : Operation) :
    d.Within id (w.perform d operation).2.2 := by
  rcases Party.moves_perform w d operation with keeps | ⟨other, held, frees⟩
  · rw [keeps.disk]
    exact .refl d
  · exact holds.eq_of_held held ▸ frees.within

theorem Holds.within_drop (broken : Option Break) : d.Within id (w.drop d broken) := by
  rcases held : w.output.held with _ | other
  · rw [Party.drop_free held]
    exact .refl d
  · exact holds.eq_of_held held ▸ (Party.frees_drop held d broken).within

end Holds

/-- A writer that is made and worked on, with a file that nobody had locked. -/
theorem holds_of_work {path : Path} {settings : Settings} {dialect : Dialect} {w₀ w : Writer}
    {d d₁ d₂ : Disk} (sound : d.Sound) (made : create path settings dialect d = (.ok w₀, d₁))
    (work : Run (fun _ => True) (fun _ _ => False) (w₀, d₁) (w, d₂)) :
    ∃ id, Holds path settings id w d₂ ∧ d.Within id d₂ ∧ d.isLocked id = false := by
  obtain ⟨id, holds⟩ := holds_create sound.valid made
  obtain ⟨other, -, found, within, -, unlocked⟩ := Disk.within_reserve (reserve_of_create_ok made)
  obtain rfl : id = other := Except.ok.inj (holds.place.symm.trans found)
  have kept : Holds path settings id w d₂ ∧ d.Within id d₂ := by
    refine work.keeps (fun w d' => Holds path settings id w d' ∧ d.Within id d') ?_ ?_
      ⟨holds, within⟩
    · intro w d' operation _ ⟨holds, within⟩
      exact ⟨holds.perform operation, within.trans (holds.within_perform operation)⟩
    · intro _ _ _ nothing
      exact nothing.elim
  exact ⟨id, kept.1, kept.2, unlocked⟩

end Writer

namespace Factory.Built

variable {path : Path} {settings : Settings} {d d' : Disk}

theorem holds {w : Writer} (sound : d.Sound) (h : Built path settings d (.ok w, d')) :
    ∃ id, Writer.Holds path settings id w d' ∧ d.Within id d' ∧ d.isLocked id = false := by
  rcases h with _ | _ | ⟨made, work⟩ | _
  exact Writer.holds_of_work sound made work

/-- A factory that fails has at most made and dropped a writer at its path. -/
theorem failed_cases {e : Error} (sound : d.Sound) (h : Built path settings d (.error e, d')) :
    d.Extends d' ∨ ∃ id, d'.file? path = .ok id ∧ d.Within id d' ∧ d.isLocked id = false := by
  rcases h with _ | ⟨made, _⟩ | _ | ⟨made, work, _⟩
  · exact .inl (.refl d)
  · exact .inl (Disk.extends_of_reserve_error (Writer.reserve_of_create_error made))
  · obtain ⟨id, holds, within, unlocked⟩ := Writer.holds_of_work sound made work
    exact .inr ⟨id, Disk.file?_of_grows (holds.within_drop _).toGrows holds.place,
      within.trans (holds.within_drop _), unlocked⟩

end Factory.Built

/-! ## What writers leave in their files -/

namespace Handout

/-- A writer that is still there holds its file, or has put its text in it; what was finished with
success is still in the file. -/
def Kept (settings : Settings) (d : Disk) (h : Handout) : Prop :=
  h.dropped = true ∧ h.text = none ∨
    ∃ id, Writer.Holds h.path settings id h.writer d ∧ ∀ text, h.text = some text →
      h.writer.finished = true ∧ d.content id = settings.format.render text

section

variable {settings : Settings} {d d' : Disk} {h : Handout} (kept : h.Kept settings d)
include kept

theorem Kept.wait (spares : ∀ id, d.file? h.path = .ok id → d.Spares h.path id d') :
    h.Kept settings d' := by
  rcases kept with gone | ⟨id, holds, texts⟩
  · exact .inl gone
  · have spared := spares id holds.place
    refine .inr ⟨id, holds.wait spared, fun text finished => ?_⟩
    rw [spared.content]
    exact texts text finished

theorem Kept.within {id : FileId} (within : d.Within id d') (differs : d.file? h.path ≠ .ok id) :
    h.Kept settings d' :=
  kept.wait fun _ found => within.spares (fun same => differs (same ▸ found)) h.path

variable (there : h.dropped = false)
include there

theorem Kept.holds : ∃ id, Writer.Holds h.path settings id h.writer d ∧
    ∀ text, h.text = some text →
      h.writer.finished = true ∧ d.content id = settings.format.render text := by
  rcases kept with ⟨gone, -⟩ | holds
  · cases gone.symm.trans there
  · exact holds

theorem Kept.perform (operation : Writer.Operation) :
    (h.perform d operation).1.Kept settings (h.perform d operation).2 := by
  obtain ⟨id, holds, texts⟩ := kept.holds there
  right
  refine ⟨id, ?_, ?_⟩
  · rw [path_perform]
    exact holds.perform operation
  by_cases success : ∃ broken, operation = .finishing broken ∧
      (h.writer.finish d broken).1 = .ok ()
  · obtain ⟨broken, rfl, success⟩ := success
    obtain rfl := holds.unbroken_of_ok success
    obtain ⟨unfinished, finished⟩ := holds.finish_ok success
    have performed : h.perform d .finish = ({ h with
        writer := h.writer.committed
        text := some h.writer.text }, (d.overwrite id h.writer.bytes).unlock id) := by
      rw [Handout.perform, Writer.perform, finished]
    rw [performed]
    intro text same
    obtain rfl := Option.some.inj same
    refine ⟨rfl, ?_⟩
    rw [holds.content_commit unfinished, ← holds.setup]
    rfl
  · have text : (h.perform d operation).1.text = h.text := by
      rw [Handout.perform]
      dsimp only
      split
      · next result => exact absurd ⟨_, rfl, result⟩ success
      · rfl
    rw [text]
    intro text same
    obtain ⟨finished, content⟩ := texts text same
    obtain ⟨finished', disk⟩ := Writer.perform_finished finished d operation
    refine ⟨finished', ?_⟩
    rw [← content]
    exact congrArg (Disk.content · id) disk

theorem Kept.drop (broken : Option Break) :
    (h.drop d broken).1.Kept settings (h.drop d broken).2 := by
  obtain ⟨id, holds, texts⟩ := kept.holds there
  rcases text : h.text with _ | text'
  · exact .inl ⟨rfl, text⟩
  · have disk : (h.drop d broken).2 = d := (holds.final (texts text' text).1).drop broken
    rw [disk]
    exact .inr ⟨id, holds, texts⟩

end

end Handout

/-! ## Runs -/

namespace Site

/-- Others do anything but touch the files at the written paths, and make no second name for a file. -/
structure Spared (s : Site) (d : Disk) : Prop where
  files : ∀ p ∈ s.session.written, ∀ id, s.disk.file? p = .ok id → s.disk.Spares p id d
  sound : s.disk.Sound → d.Sound

structure Kept (settings : Settings) (s : Site) : Prop where
  sound : s.disk.Sound
  handouts : ∀ h ∈ s.handouts, h.Kept settings s.disk

section Step

variable {start : Session} {settings : Settings}

/-- Of the writers of a session, one that changes its file changes no file of another. -/
theorem kept_of_within {others : List Handout} {d d' : Disk} {p : Path} {id : FileId}
    (sound : d.Sound) (normal : p.Normal) (within : d.Within id d') (found : d'.file? p = .ok id)
    (apart : ∀ h ∈ others, h.path.Normal ∧ h.path ≠ p ∧ h.Kept settings d) :
    ∀ h ∈ others, h.Kept settings d' := by
  intro h mem
  obtain ⟨normal', differs, kept⟩ := apart h mem
  exact kept.within within (within.ne_file? sound normal normal' differs found)

theorem Books.paths_of_mem {s : Site} (books : Books start s) {h : Handout}
    (mem : h ∈ s.handouts) : h.path ∈ s.session.written := by
  rw [books.paths]
  exact List.mem_map_of_mem mem

theorem others_subset (before after : List Handout) (h : Handout) :
    before ++ after ⊆ before ++ h :: after :=
  ((List.sublist_cons_self h after).append_left before).subset

/-- The paths of two writers differ. -/
theorem Books.path_ne {session : Session} {before after : List Handout} {h : Handout} {d : Disk}
    (books : Books start ⟨session, before ++ h :: after, d⟩) :
    ∀ other ∈ before ++ after, other.path.Normal ∧ other.path ≠ h.path := by
  intro other mem
  have known := books.paths_of_mem (others_subset before after h mem)
  refine ⟨books.tidy.normal _ known, fun same => ?_⟩
  have once := books.tidy.once
  rw [books.paths, List.map_append, List.map_cons] at once
  have new := (List.nodup_cons.1 (List.nodup_middle.1 once)).1
  rw [← List.map_append, ← same] at new
  exact new (List.mem_map_of_mem mem)

theorem Kept.replace {session : Session} {before after : List Handout} {h h' : Handout}
    {d d' : Disk} (books : Books start ⟨session, before ++ h :: after, d⟩)
    (kept : Kept settings ⟨session, before ++ h :: after, d⟩) {id : FileId}
    (within : d.Within id d') (found : d.file? h.path = .ok id) (new : h'.Kept settings d') :
    Kept settings ⟨session, before ++ h' :: after, d'⟩ := by
  have normal : h.path.Normal := books.tidy.normal _ (books.paths_of_mem (by simp))
  have others : ∀ other ∈ before ++ after, other.Kept settings d' := by
    refine kept_of_within kept.sound normal within (Disk.file?_of_grows within.toGrows found) ?_
    intro other mem
    obtain ⟨normal', differs⟩ := books.path_ne other mem
    exact ⟨normal', differs, kept.handouts other (others_subset before after h mem)⟩
  refine ⟨within.sound kept.sound, fun other mem => ?_⟩
  by_cases here : other = h'
  · rwa [here]
  · refine others other ?_
    simp only [List.mem_append, List.mem_cons] at mem ⊢
    tauto

/-- So does one that touches a path that is not written. -/
theorem Kept.fresh {s : Site} {d : Disk} (books : Books start s) (kept : Kept settings s)
    {p : Path} {id : FileId} (normal : p.Normal) (new : p ∉ s.session.written)
    (within : s.disk.Within id d) (found : d.file? p = .ok id) :
    ∀ h ∈ s.handouts, h.Kept settings d :=
  kept_of_within kept.sound normal within found fun h mem =>
    have known := books.paths_of_mem mem
    ⟨books.tidy.normal _ known, fun same => new (same ▸ known), kept.handouts h mem⟩

theorem Kept.step {s t : Site} (builds : ∀ entry ∈ start.registry.entries, entry.2.Builds)
    (same : settings = start.options.settings) (books : Books start s) (kept : Kept settings s)
    (h : Step Spared s t) : Kept settings t := by
  have built : ∀ {request factory}, Request.factory? s.session.registry request = some factory →
      factory.Builds := fun asked =>
    Request.factory?_property Factory.builds_ofDialect (books.registry ▸ builds) asked
  have setup : s.session.options.settings = settings := by rw [books.options, same]
  cases h with
  | @served _ request w session d h =>
    obtain ⟨factory, p, asked, ⟨normal, new⟩, made, rfl⟩ := books.tidy.serve_ok h
    have built := built asked p settings s.disk
    rw [setup] at made
    rw [made] at built
    obtain ⟨id, holds, within, -⟩ := built.holds kept.sound
    refine ⟨within.sound kept.sound, fun h mem => ?_⟩
    rcases List.mem_append.1 mem with old | here
    · exact kept.fresh books normal new within holds.place h old
    · rw [List.mem_singleton.1 here]
      exact .inr ⟨id, by rwa [Handout.path, holds.named], nofun⟩
  | @refused _ request e session d h =>
    obtain ⟨rfl, rfl | ⟨factory, p, asked, ⟨normal, new⟩, made⟩⟩ := books.tidy.serve_error h
    · exact kept
    have built := built asked p settings s.disk
    rw [setup] at made
    rw [made] at built
    rcases built.failed_cases kept.sound with more | ⟨id, found, within, -⟩
    · exact ⟨more.sound kept.sound, fun h mem => (kept.handouts h mem).wait
        fun id _ => more.spares h.path id⟩
    · have others := kept.fresh books normal new within found
      exact ⟨within.sound kept.sound, others⟩
  | used there operation =>
    have kept' := kept.handouts _ (List.mem_append_right _ List.mem_cons_self)
    obtain ⟨id, holds, -⟩ := kept'.holds there
    exact kept.replace books (holds.within_perform operation) holds.place (kept'.perform there _)
  | dropped there broken =>
    have kept' := kept.handouts _ (List.mem_append_right _ List.mem_cons_self)
    obtain ⟨id, holds, -⟩ := kept'.holds there
    exact kept.replace books (holds.within_drop broken) holds.place (kept'.drop there broken)
  | waited spared =>
    exact ⟨spared.sound kept.sound, fun h mem => (kept.handouts h mem).wait
      (spared.files h.path (books.paths_of_mem mem))⟩

end Step

theorem kept_of_run {options : SessionOptions} {registry : Registry} {d₀ : Disk} {s : Site}
    (working : d₀.working.isAbsolute = true) (sound : d₀.Sound)
    (builds : ∀ entry ∈ registry.entries, entry.2.Builds)
    (run : Run Spared (start options registry d₀) s) : Kept options.settings s := by
  have there : ∀ entry ∈ registry.entries, entry.2.BuildsThere :=
    fun entry mem => (builds entry mem).there
  induction run with
  | refl => exact ⟨sound, fun _ mem => absurd mem List.not_mem_nil⟩
  | tail before step ih =>
    refine ih.step ?_ ?_ (books_of_run working there before) step
    · exact builds
    · rfl

end Site

/-! ## Cleaning up and writing the log -/

namespace FileLog

theorem normal_of_mem_read {base : Path} (normal : base.Normal) {log : String} {p : Path}
    (mem : p ∈ read base log) : p.Normal := by
  obtain ⟨line, -, rfl⟩ := List.mem_map.1 mem
  exact Path.normal_absolutize normal.isAbsolute _

/-- What is written this time is not stale. -/
theorem isStale_of_mem (base : Path) {written : List Path} {p : Path} (mem : p ∈ written) :
    isStale base written p = false := by
  have taken : written.any (p.same ·) = true := List.any_eq_true.2 ⟨p, mem, by rw [Path.same_iff]⟩
  simp [isStale, taken]

/-- What `clean` does to the disk. -/
theorem clean_cases {base : Path} {written : List Path} {d d' : Disk}
    (h : clean base written d = .ok d') :
    d' = d ∨ ∃ log, d.readText (path base) = .ok log ∧
      d' = ((read base log).filter (isStale base written)).foldl Disk.remove d := by
  unfold clean at h
  split at h
  · exact .inl (Except.ok.inj h).symm
  · cases h
  · next log read => exact .inr ⟨log, read, (Except.ok.inj h).symm⟩

/-- Cleaning leaves the files at written paths where they are, and all contents and locks. -/
structure Cleaned (written : List Path) (d d' : Disk) : Prop where
  sound : d'.Sound
  place : ∀ p ∈ written, ∀ id, d.file? p = .ok id → d'.file? p = .ok id
  content : ∀ id, d'.content id = d.content id
  locked : d'.locked = d.locked

theorem cleaned {base : Path} {written : List Path} {d d' : Disk} (normal : base.Normal)
    (all : ∀ p ∈ written, p.Normal) (sound : d.Sound) (h : clean base written d = .ok d') :
    Cleaned written d d' := by
  rcases clean_cases h with rfl | ⟨log, -, rfl⟩
  · exact ⟨sound, fun _ _ _ found => found, fun _ => rfl, rfl⟩
  refine ⟨sound.removeAll _, fun p mem id found => ?_, fun id => Disk.content_removeAll d _ id,
    Disk.locked_removeAll d _⟩
  refine Disk.file?_removeAll (all p mem)
    (fun q known => normal_of_mem_read normal (List.mem_of_mem_filter known)) ?_ found
  intro stale
  have named := (List.mem_filter.1 stale).2
  rw [isStale_of_mem base mem] at named
  cases named

theorem normal_path {base : Path} (normal : base.Normal) : (path base).Normal := by
  obtain ⟨names, all, rfl⟩ := normal
  have name : Path.IsName FileLog.name := ⟨by decide, by decide, by decide, by decide⟩
  exact ⟨_, Path.isName_concat all name, (Path.ofNames_concat names FileLog.name).symm⟩

/-- Writing the log changes the file at its path only, which then has the log. -/
theorem write_ok {base : Path} {written : List Path} {d d' : Disk} (sound : d.Sound)
    (h : write base written d = (.ok (), d')) :
    ∃ id, d'.file? (path base) = .ok id ∧ d.Within id d' ∧
      d'.content id = ({} : FileFormat).render (render base written) := by
  unfold write at h
  split at h
  · cases h
  next o d₁ reserved =>
  obtain ⟨id, rfl, found, within, empty, -⟩ := Disk.within_reserve reserved
  have file := (within.sound sound).valid.file? found
  obtain rfl : ((d₁.overwrite id (({} : FileFormat).render (render base written))).unlock id) = d' :=
    congrArg Prod.snd h
  have later := @Disk.Within.commit id d₁ (({} : FileFormat).render (render base written))
  exact ⟨id, Disk.file?_of_grows later.toGrows found, within.trans later,
    Disk.content_overwrite file empty _⟩

end FileLog

namespace Session

/-- A session that finishes with success has cleaned up, and then written its log if it keeps one. -/
theorem finish_ok {s : Session} {d d' : Disk} (tidy : s.Tidy) (sound : d.Sound)
    (h : s.finish d = (.ok (), d')) :
    ∃ d₁, FileLog.Cleaned s.written d d₁ ∧
      if s.options.writeFileLog then FileLog.write s.base s.written d₁ = (.ok (), d')
      else d' = d₁ := by
  unfold finish at h
  split at h
  · cases h
  next d₁ cleaned =>
  have kept : FileLog.Cleaned s.written d d₁ := by
    split at cleaned
    · exact FileLog.cleaned tidy.base tidy.normal sound cleaned
    · cases cleaned
      exact ⟨sound, fun _ _ _ found => found, fun _ => rfl, rfl⟩
  refine ⟨d₁, kept, ?_⟩
  split at h
  · next log => rwa [if_pos log]
  · next noLog =>
    rw [if_neg noLog]
    cases h
    rfl

/-- When a session has finished with success, the file of each of its writers that was finished with
success has the text of the writer in the format of the session, unless the path is that of the log
and the log is written: then the log has replaced it. The disk has folders and regular files, each
file under one name: through a link another path could be that of the log. -/
theorem outputs_kept {options : SessionOptions} {registry : Registry} {d₀ d : Disk} {s : Site}
    (working : d₀.working.isAbsolute = true) (sound : d₀.Sound)
    (builds : ∀ entry ∈ registry.entries, entry.2.Builds)
    (run : Site.Run Site.Spared (.start options registry d₀) s)
    (done : s.session.finish s.disk = (.ok (), d)) :
    s.session.written = s.handouts.map Handout.path ∧
    ∀ h ∈ s.handouts, ∀ text, h.text = some text → ∃ id, d.file? h.path = .ok id ∧
      d.content id =
        if options.writeFileLog = true ∧ h.path = FileLog.path s.session.base then
          ({} : FileFormat).render (FileLog.render s.session.base s.session.written)
        else options.settings.format.render text := by
  have books := Site.books_of_run working (fun entry mem => (builds entry mem).there) run
  have kept := Site.kept_of_run working sound builds run
  refine ⟨books.paths, fun h mem text finished => ?_⟩
  have written := books.paths_of_mem mem
  obtain ⟨id, holds, texts⟩ : ∃ id, Writer.Holds h.path options.settings id h.writer s.disk ∧
      s.disk.content id = options.settings.format.render text := by
    rcases kept.handouts h mem with ⟨-, none⟩ | ⟨id, holds, texts⟩
    · cases none.symm.trans finished
    · exact ⟨id, holds, (texts text finished).2⟩
  obtain ⟨d₁, cleaned, log⟩ := finish_ok books.tidy kept.sound done
  have place := cleaned.place h.path written id holds.place
  have content := (cleaned.content id).trans texts
  have same : s.session.options = options := books.options
  rw [same] at log
  by_cases logs : options.writeFileLog = true
  · rw [if_pos logs] at log
    obtain ⟨logId, found, within, logged⟩ := FileLog.write_ok cleaned.sound log
    by_cases here : h.path = FileLog.path s.session.base
    · rw [if_pos ⟨logs, here⟩, here]
      exact ⟨logId, found, logged⟩
    · rw [if_neg fun both => here both.2]
      have differs := within.ne_file? cleaned.sound (FileLog.normal_path books.tidy.base)
        (books.tidy.normal _ written) here found
      refine ⟨id, Disk.file?_of_grows within.toGrows place, ?_⟩
      rw [within.content id fun same => differs (same ▸ place), content]
  · rw [if_neg logs] at log
    rw [if_neg fun both => logs both.1, log]
    exact ⟨id, place, content⟩

/-- A writer at the path of the log loses its text to the log. -/
theorem outputs_kept_log :
    let s₀ : Site := .start {} .builtins (.empty ⟨"/"⟩)
    ∃ s d, ((Disk.empty ⟨"/"⟩).working.isAbsolute = true ∧ (Disk.empty ⟨"/"⟩).Sound ∧
        (∀ entry ∈ Registry.builtins.entries, entry.2.Builds) ∧ Site.Run Site.Spared s₀ s ∧
        s.session.finish s.disk = (.ok (), d)) ∧
      ∃ h ∈ s.handouts, h.text = some "x\n" ∧ ∃ id, d.file? h.path = .ok id ∧
        d.content id = ({} : FileFormat).render "FilesWritten.txt\n" := by
  intro s₀
  let w (held : Option FileId) (body : String) (tight finished : Bool) : Writer := {
    dialect := .text "" none, output := ⟨⟨"/FilesWritten.txt"⟩, held⟩, directory := ⟨"/"⟩
    settings := {}, draft := { unit := .spaces 4, body, tight }, finished }
  let d (bytes : Bytes) (locked : List FileId) : Disk :=
    ⟨⟨"/"⟩, [(["FilesWritten.txt"], .file 0)], [bytes], locked⟩
  let session : Session := { s₀.session with written := [⟨"/FilesWritten.txt"⟩] }
  let h : Handout := { writer := w none "" false true, text := some "x\n" }
  let log := ({} : FileFormat).render "FilesWritten.txt\n"
  have served : (Site.start {} .builtins (.empty ⟨"/"⟩)).session.serve (.empty ⟨"/"⟩)
      (.ofDialect "FilesWritten.txt" (.text "" none)) =
      (.ok (w (some 0) "" true false), session, d [] [0]) := rfl
  have wrote : Handout.perform { writer := w (some 0) "" true false } (d [] [0])
      (.edit (.writeLine "x")) =
      ({ writer := w (some 0) "x\n" false false }, d [] [0]) := rfl
  have finished : Handout.perform { writer := w (some 0) "x\n" false false } (d [] [0]) .finish =
      (h, d [120, 10] []) := by
    dsimp only [w, d, h]
    rfl
  have done : session.finish (d [120, 10] []) = (.ok (), d log []) := by
    dsimp only [session, s₀, d, log]
    rfl
  have run₁ : Site.Run Site.Spared s₀ ⟨session, [{ writer := w (some 0) "" true false }], d [] [0]⟩ :=
    .single (.served served)
  have run₂ := run₁.tail (@Site.Step.used _ _ [] [] _ _ rfl (.edit (.writeLine "x")))
  rw [wrote] at run₂
  have run := run₂.tail (@Site.Step.used _ _ [] [] _ _ rfl .finish)
  rw [finished] at run
  have path : h.path = FileLog.path session.base := by
    dsimp only [h, w, session, s₀]
    rfl
  have logged : FileLog.render session.base session.written = "FilesWritten.txt\n" := by
    dsimp only [session, s₀]
    rfl
  have sound : (Disk.empty ⟨"/"⟩).Sound := Disk.sound_empty _
  have run' : Site.Run Site.Spared s₀ ⟨session, [h], d [120, 10] []⟩ := run
  obtain ⟨-, kept⟩ := outputs_kept rfl sound Registry.builds_builtins run' done
  obtain ⟨id, found, content⟩ := kept h List.mem_cons_self "x\n" rfl
  rw [if_pos ⟨rfl, path⟩, logged] at content
  exact ⟨⟨session, [h], d [120, 10] []⟩, d log [],
    ⟨rfl, sound, Registry.builds_builtins, run', done⟩, h, List.mem_cons_self, rfl, id, found,
    content⟩

end Session

end Emitter
