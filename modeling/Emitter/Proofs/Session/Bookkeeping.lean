import Emitter.Proofs.Session.Renaming

/-! The list of written paths. In every run of a session it has the paths of the writers that were
given out, in the order of opening, each once and in normal form; a request that is not served leaves
it alone, and a conflict is reported exactly for a path that is in it. -/

namespace Emitter

namespace Session

/-- What is always so for the base and the written paths. -/
structure Tidy (s : Session) : Prop where
  base : s.base.Normal
  normal : ∀ p ∈ s.written, p.Normal
  below : ∀ p ∈ s.written, p ≠ Path.ofNames []
  once : s.written.Nodup

theorem tidy_start (options : SessionOptions) (registry : Registry) {d : Disk}
    (working : d.working.isAbsolute = true) : (start options registry d).Tidy where
  base := Path.normal_absolutize working options.baseOutputDirectory
  normal := nofun
  below := nofun
  once := List.nodup_nil

/-- The path that is picked is new; with the list as it is, the search for a number does not end
before it finds one. -/
theorem Tidy.pick {s : Session} (tidy : s.Tidy) {request : String} {p : Path}
    (h : s.pick request = .ok p) : p.Normal ∧ s.isTaken p = false := by
  refine ⟨normal_pick tidy.base h, ?_⟩
  have requested := normal_requested tidy.base request
  rcases taken : s.isTaken (s.requested request) with _ | _
  · rw [pick_free taken] at h
    obtain rfl := Except.ok.inj h
    exact taken
  rcases renames : s.options.autoRenameConflictingFiles with _ | _
  · simp [Session.pick, taken, renames] at h
  · have below := tidy.below _ ((isTaken_iff tidy.normal requested).1 taken)
    obtain ⟨i, bound, first⟩ := exists_firstFree tidy.normal requested below
    rw [pick_taken renames taken first bound] at h
    obtain rfl := Except.ok.inj h
    exact first.free

theorem Tidy.not_mem {s : Session} (tidy : s.Tidy) {p : Path} (normal : p.Normal)
    (free : s.isTaken p = false) : p ∉ s.written := fun mem => by
  rw [(isTaken_iff tidy.normal normal).2 mem] at free
  cases free

theorem Tidy.serve_ok {s session : Session} (tidy : s.Tidy) {d d' : Disk} {request : Request}
    {w : Writer} (h : s.serve d request = (.ok w, session, d')) :
    ∃ factory p, request.factory? s.registry = some factory ∧ (p.Normal ∧ p ∉ s.written) ∧
      factory p s.options.settings d = (.ok w, d') ∧
      session = { s with written := s.written ++ [p] } := by
  obtain ⟨factory, p, asked, picked, made, rfl⟩ := Session.serve_ok h
  obtain ⟨normal, free⟩ := tidy.pick picked
  exact ⟨factory, p, asked, ⟨normal, tidy.not_mem normal free⟩, made, record_free free⟩

/-- What a failed factory is given back for is what was recorded for it. -/
theorem Tidy.serve_error {s session : Session} (tidy : s.Tidy) {d d' : Disk} {request : Request}
    {e : Error} (h : s.serve d request = (.error e, session, d')) :
    session = s ∧ (d' = d ∨ ∃ factory p, request.factory? s.registry = some factory ∧
      (p.Normal ∧ p ∉ s.written) ∧ factory p s.options.settings d = (.error e, d')) := by
  obtain ⟨rfl, rfl⟩ | ⟨factory, p, asked, picked, made, rfl⟩ := Session.serve_error h
  · exact ⟨rfl, .inl rfl⟩
  · obtain ⟨normal, free⟩ := tidy.pick picked
    exact ⟨release_record free,
      .inr ⟨factory, p, asked, ⟨normal, tidy.not_mem normal free⟩, made⟩⟩

end Session

/-- A file was reserved for a writer that was given away, so it does not stand at the root. -/
theorem Factory.Built.below {p : Path} {settings : Settings} {d d' : Disk} {w : Writer}
    (h : Built p settings d (.ok w, d')) : p ≠ Path.ofNames [] := by
  rcases h with _ | _ | ⟨made, work⟩ | _
  obtain ⟨d₁, id, -, found, -⟩ := Disk.reserve_ok_cases (Writer.reserve_of_create_ok made)
  obtain ⟨parent, name, located, -⟩ := Disk.file?_eq_ok.1 found
  have last := (Disk.locate_eq_name.1 located).1.last
  rintro rfl
  cases last

namespace Site

/-- What the session knows of its writers. -/
structure Books (start : Session) (s : Site) : Prop where
  options : s.session.options = start.options
  base : s.session.base = start.base
  registry : s.session.registry = start.registry
  tidy : s.session.Tidy
  paths : s.session.written = s.handouts.map Handout.path

theorem Books.step {others : Site → Disk → Prop} {start : Session} {s t : Site}
    (there : ∀ entry ∈ start.registry.entries, entry.2.BuildsThere) (books : Books start s)
    (h : Step others s t) : Books start t := by
  cases h with
  | @served _ request w session d h =>
    obtain ⟨factory, p, asked, ⟨normal, new⟩, made, rfl⟩ := books.tidy.serve_ok h
    have built : factory.BuildsThere :=
      Request.factory?_property (fun dialect => (Factory.builds_ofDialect dialect).there)
        (books.registry ▸ there) asked
    obtain ⟨used, built⟩ := built p s.session.options.settings s.disk
    rw [made] at built
    refine ⟨books.options, books.base, books.registry, ⟨books.tidy.base, ?_, ?_, ?_⟩, ?_⟩
    · intro q mem
      rcases List.mem_append.1 mem with old | here
      · exact books.tidy.normal q old
      · rwa [List.mem_singleton.1 here]
    · intro q mem
      rcases List.mem_append.1 mem with old | here
      · exact books.tidy.below q old
      · rw [List.mem_singleton.1 here]
        exact built.below
    · refine List.nodup_append.2 ⟨books.tidy.once, by simp, fun q mem r here => ?_⟩
      rintro rfl
      exact new (List.mem_singleton.1 here ▸ mem)
    · simp [books.paths, Handout.path, built.path]
  | refused h =>
    obtain ⟨rfl, -⟩ := books.tidy.serve_error h
    exact { books with }
  | used there operation => exact { books with paths := by simpa using books.paths }
  | dropped there => exact { books with paths := by simpa using books.paths }
  | waited h => exact { books with }

theorem Books.subset_written {others : Site → Disk → Prop} {start : Session} {s t : Site}
    (books : Books start s) (h : Step others s t) : s.session.written ⊆ t.session.written := by
  cases h with
  | served h =>
    obtain ⟨_, _, -, -, -, rfl⟩ := books.tidy.serve_ok h
    exact List.subset_append_left _ _
  | refused h =>
    obtain ⟨rfl, -⟩ := books.tidy.serve_error h
    exact List.Subset.refl _
  | used => exact List.Subset.refl _
  | dropped => exact List.Subset.refl _
  | waited => exact List.Subset.refl _

theorem books_of_run {others : Site → Disk → Prop} {options : SessionOptions} {registry : Registry}
    {d₀ : Disk} {s : Site} (working : d₀.working.isAbsolute = true)
    (there : ∀ entry ∈ registry.entries, entry.2.BuildsThere)
    (run : Run others (start options registry d₀) s) :
    Books (.start options registry d₀) s := by
  induction run with
  | refl => exact ⟨rfl, rfl, rfl, Session.tidy_start options registry working, rfl⟩
  | tail _ step ih => exact ih.step there step

end Site

namespace Session

theorem serve_taken {s : Session} {request : Request} {factory : Factory}
    (asked : request.factory? s.registry = some factory)
    (plain : s.options.autoRenameConflictingFiles = false)
    (taken : s.isTaken (s.requested request.path) = true) (d : Disk) :
    s.serve d request = (.error (.outputConflict (s.requested request.path)), s, d) := by
  have refused : s.claim request.path = .error (.outputConflict (s.requested request.path)) := by
    rw [claim, pick]
    simp [taken, plain, Except.map]
  rw [serve_of_factory asked, openWith, refused]

theorem serve_free {s : Session} {request : Request} {factory : Factory}
    (asked : request.factory? s.registry = some factory)
    (free : s.isTaken (s.requested request.path) = false) (d : Disk) :
    (s.serve d request).1 = (factory (s.requested request.path) s.options.settings d).1 := by
  rw [serve_of_pick asked (pick_free free)]
  split <;> next made => rw [made]

/-- After any requests, served or not, and whatever became of the writers: the written paths are
those of the writers that were given out, in the order of opening, each once, absolute and without
dots. A claim writes its path behind the others, before the file is opened; if it is given back, the
list is as if it had never been made, whatever was written in the meantime. So a request that is not
served changes nothing of the list. One of an unknown kind is refused. One of a known kind whose path
is written already is refused as a conflict, unless files are renamed, and nothing is touched; no
other request ends with a conflict that its factory does not report. -/
theorem bookkeeping {options : SessionOptions} {registry : Registry} {d₀ : Disk} {s : Site}
    (working : d₀.working.isAbsolute = true)
    (there : ∀ entry ∈ registry.entries, entry.2.BuildsThere)
    (run : Site.Run (fun _ _ => True) (.start options registry d₀) s) :
    s.session.written = s.handouts.map Handout.path ∧
    s.session.written.Pairwise (fun p q => p.same q = false) ∧
    (∀ p ∈ s.session.written, p.isAbsolute = true ∧
      ∀ piece ∈ p.pieces, piece ≠ ['.'] ∧ piece ≠ ['.', '.']) ∧
    (∀ request p claimed, s.session.claim request = .ok (p, claimed) →
      claimed = { s.session with written := s.session.written ++ [p] } ∧
      claimed.release p = s.session ∧
      ∀ later, ({ claimed with written := claimed.written ++ later } : Session).release p =
        { s.session with written := s.session.written ++ later }) ∧
    ∀ d request,
      (∀ e session d', s.session.serve d request = (.error e, session, d') → session = s.session) ∧
      (∀ kind path, request = .ofKind kind path → registry.contains kind = false →
        s.session.serve d request = (.error (.unknownWriterKind kind), s.session, d)) ∧
      (∀ factory, request.factory? registry = some factory →
        factory.Honest → options.autoRenameConflictingFiles = false →
        ((∃ p, (s.session.serve d request).1 = .error (.outputConflict p)) ↔
          s.session.requested request.path ∈ s.session.written) ∧
        (s.session.requested request.path ∈ s.session.written → s.session.serve d request =
          (.error (.outputConflict (s.session.requested request.path)), s.session, d))) := by
  have books := Site.books_of_run working there run
  have tidy := books.tidy
  refine ⟨books.paths, ?_, fun p mem => ?_, fun request p claimed taken => ?_, fun d request =>
    ⟨fun _ _ _ failed => (tidy.serve_error failed).1, ?_, fun factory asked honest plain => ?_⟩⟩
  · refine tidy.once.imp_of_mem fun {p q} hp hq differ => ?_
    rw [← Bool.not_eq_true, (tidy.normal p hp).same_iff (tidy.normal q hq)]
    exact differ
  · exact ⟨(tidy.normal p mem).isAbsolute, (tidy.normal p mem).pieces_ne⟩
  · obtain ⟨picked, rfl⟩ := claim_eq_ok.1 taken
    obtain ⟨-, free⟩ := tidy.pick picked
    refine ⟨record_free free, release_record free, fun later => ?_⟩
    rw [record_free free, List.append_assoc]
    exact release_append free later
  · rintro kind path rfl unknown
    exact serve_of_unknown (books.registry ▸ unknown) path d
  · have asked' : request.factory? s.session.registry = some factory := books.registry ▸ asked
    have plain' : s.session.options.autoRenameConflictingFiles = false := books.options ▸ plain
    have taken_iff := isTaken_iff tidy.normal (normal_requested tidy.base request.path)
    have conflict := fun taken => serve_taken asked' plain' (taken_iff.2 taken) d
    refine ⟨⟨fun ⟨p, reported⟩ => ?_, fun taken => ⟨_, congrArg Prod.fst (conflict taken)⟩⟩,
      conflict⟩
    by_contra free
    rw [← taken_iff, Bool.not_eq_true] at free
    rw [serve_free asked' free] at reported
    exact honest _ _ _ _ reported

/-- One path under two spellings, the second of which is refused, and a path below a file, which is
claimed and given back. -/
theorem bookkeeping_conflict :
    let s₀ : Site := .start {} .builtins (.empty ⟨"/"⟩)
    let w : Writer := {
      dialect := .text "" none, output := ⟨⟨"/a"⟩, some 0⟩, directory := ⟨"/"⟩, settings := {}
      draft := { unit := .spaces 4 }, finished := false }
    let d : Disk := ⟨⟨"/"⟩, [(["a"], .file 0)], [[]], [0]⟩
    let s : Site := ⟨{ s₀.session with written := [⟨"/a"⟩] }, [{ writer := w }], d⟩
    let claimed : Session := { s.session with written := [⟨"/a"⟩, ⟨"/a/b"⟩] }
    ((Disk.empty ⟨"/"⟩).working.isAbsolute = true ∧
      (∀ entry ∈ Registry.builtins.entries, entry.2.BuildsThere) ∧
      Site.Run (fun _ _ => True) s₀ s) ∧
    s.session.written = s.handouts.map Handout.path ∧
    s.session.serve d (.ofDialect "b\\../a" .cLike) =
      (.error (.outputConflict ⟨"/a"⟩), s.session, d) ∧
    s.session.claim "a/b" = .ok (⟨"/a/b"⟩, claimed) ∧ claimed.release ⟨"/a/b"⟩ = s.session ∧
    s.session.serve d (.ofDialect "a/b" .cLike) =
      (.error (.io ⟨"/a"⟩ .alreadyExists), s.session, d) := by
  intro s₀ w d s claimed
  have served : (Site.start {} .builtins (.empty ⟨"/"⟩)).session.serve (.empty ⟨"/"⟩)
      (.ofDialect "a" (.text "" none)) = (.ok w, s.session, d) := rfl
  have run : Site.Run (fun _ _ => True) s₀ s := .single (.served served)
  have there : ∀ entry ∈ Registry.builtins.entries, entry.2.BuildsThere :=
    fun entry mem => (Registry.builds_builtins entry mem).there
  obtain ⟨paths, -, -, claims, requests⟩ := bookkeeping rfl there run
  obtain ⟨-, -, known⟩ := requests d (.ofDialect "b\\../a" .cLike)
  have requested : (Session.start {} .builtins (.empty ⟨"/"⟩)).requested "b\\../a" = ⟨"/a"⟩ := rfl
  have requested' : s.session.requested "b\\../a" = ⟨"/a"⟩ := requested
  obtain ⟨-, conflict⟩ := known _ rfl (Factory.honest_ofDialect .cLike) rfl
  rw [Request.path, requested'] at conflict
  have path : s.session.requested "a/b" = ⟨"/a/b"⟩ := by decide
  have free : s.session.isTaken ⟨"/a/b"⟩ = false := by decide
  have picked : s.session.pick "a/b" = .ok ⟨"/a/b"⟩ := by rw [pick_free (path ▸ free), path]
  have taken : s.session.claim "a/b" = .ok (⟨"/a/b"⟩, claimed) :=
    claim_eq_ok.2 ⟨picked, (record_free free).symm⟩
  obtain ⟨-, released, -⟩ := claims _ _ _ taken
  obtain ⟨unserved, -, -⟩ := requests d (.ofDialect "a/b" .cLike)
  have made : Factory.ofDialect .cLike ⟨"/a/b"⟩ s.session.options.settings d =
      (.error (.io ⟨"/a"⟩ .alreadyExists), d) := rfl
  have asked : (Request.ofDialect "a/b" .cLike).factory? s.session.registry =
      some (.ofDialect .cLike) := rfl
  have failed := serve_of_pick asked picked d
  rw [made] at failed
  have same := unserved _ _ _ failed
  rw [same] at failed
  exact ⟨⟨rfl, there, run⟩, paths, conflict List.mem_cons_self, taken, released, failed⟩

end Session

end Emitter
