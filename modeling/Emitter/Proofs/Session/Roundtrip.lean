import Emitter.Proofs.Session.LogText
import Emitter.Proofs.Session.Outputs
import Emitter.Proofs.Text.Utf8

/-! From the log of a session to the cleaning of the next one. What a session writes below its base
has a name in the log (`named_of_run`), so that the next session reads from the log the paths that
were written if all lines are legible, and takes away their files and no others (`log_roundtrip`). -/

namespace Emitter

/-! ## Paths that a session opens -/

namespace Session

/-- What is opened has no backslash beyond the base, however it is asked for. -/
theorem portableBelow_pick {s : Session} {outer : List String} {request : String} {p : Path}
    (ho : ∀ name ∈ outer, Path.IsName name) (hb : s.base = Path.ofNames outer)
    (h : s.pick request = .ok p) : p.PortableBelow outer.length := by
  have normal := Path.normal_absolutize (Path.isAbsolute_ofNames ho) (.ofPortable request)
  have portable := Path.portableBelow_absolutize ho request
  have requested := FileName.portableBelow_fit normal portable none
  rw [← hb] at normal requested
  rcases pick_cases h with same | ⟨n, -, same⟩
  · rw [same]
    exact requested
  · rw [same]
    exact FileName.portableBelow_fit (FileName.normal_fit normal none) requested (some n)

end Session

namespace Site

theorem portable_of_run {others : Site → Disk → Prop} {options : SessionOptions}
    {registry : Registry} {d₀ : Disk} {s : Site} {outer : List String}
    (ho : ∀ name ∈ outer, Path.IsName name)
    (hb : (Session.start options registry d₀).base = Path.ofNames outer)
    (run : Run others (start options registry d₀) s) :
    s.session.base = Path.ofNames outer ∧
      ∀ p ∈ s.session.written, p.PortableBelow outer.length := by
  induction run with
  | refl => exact ⟨hb, nofun⟩
  | tail _ step ih =>
    obtain ⟨base, portable⟩ := ih
    obtain ⟨-, base', written⟩ := step.session_cases
    refine ⟨base'.trans base, fun q mem => ?_⟩
    rcases written q mem with old | ⟨request, picked⟩
    · exact portable q old
    · exact Session.portableBelow_pick ho base picked

end Site

namespace FileLog

/-- A path below the base has names after those of the base. -/
theorem named_of_startsWith {outer : List String} {p : Path}
    (ho : ∀ name ∈ outer, Path.IsName name) (normal : p.Normal)
    (portable : p.PortableBelow outer.length)
    (below : p.startsWith (Path.ofNames outer) = true) (differs : p ≠ Path.ofNames outer) :
    ∃ names, Named outer p names := by
  obtain ⟨all, valid, rfl⟩ := normal
  rw [Path.startsWith, Path.components_ofNames ho, Path.components_ofNames valid,
    List.isPrefixOf_iff_prefix, List.cons_prefix_cons] at below
  obtain ⟨names, rfl⟩ := (List.prefix_map_iff_of_injective
    fun _ _ same => Path.Component.name.inj same).1 below.2
  have beyond := portable _ valid rfl
  rw [List.drop_left] at beyond
  refine ⟨names, fun name mem => valid name (List.mem_append_right _ mem), ?_, beyond, rfl⟩
  rintro rfl
  exact differs (by rw [List.append_nil])

end FileLog

/-! ## Reading the log -/

namespace Disk

theorem readText_of_render {d : Disk} {p : Path} {id : FileId} {text : String}
    (found : d.file? p = .ok id) (content : d.content id = ({} : FileFormat).render text) :
    d.readText p = .ok text := by
  have bytes : ({} : FileFormat).render text = Text.Utf8.encode text.toList := rfl
  rw [readText, found]
  dsimp only
  rw [content, bytes, Text.Utf8.decode?_encode]
  dsimp only
  rw [String.ofList_toList]

theorem file?_of_readText {d : Disk} {p : Path} {text : String} (h : d.readText p = .ok text) :
    ∃ id, d.file? p = .ok id := by
  rw [readText] at h
  split at h
  · cases h
  · next found => exact ⟨_, found⟩

end Disk

namespace FileLog

/-- Writing over a log makes no names and changes no other file. -/
theorem write_there {base : Path} {d : Disk} {id : FileId} (written : List Path)
    (found : d.file? (path base) = .ok id) :
    (write base written d).2.nodes = d.nodes ∧ d.Within id (write base written d).2 := by
  unfold write
  rw [Disk.reserve_of_names (Disk.names_of_file? found), Disk.makeParent_of_file? found]
  by_cases locked : d.isLocked id = true
  · rw [if_pos locked]
    exact ⟨rfl, .refl d⟩
  · rw [if_neg locked]
    exact ⟨rfl, ((Disk.Within.lock d).trans (.setContent _ [])).trans (.commit _ _)⟩

end FileLog

namespace Session

/-- A session over this base that writes none of these paths, where their log and their files are
still there. -/
structure Follows (base : Path) (written : List Path) (log : String) (s : Session) (d : Disk) :
    Prop where
  sameBase : s.base = base
  cleans : s.options.cleanStaleOutput = true
  writesOthers : ∀ p ∈ written, s.isTaken p = false
  log : d.readText (FileLog.path base) = .ok log
  there : ∀ p ∈ written, ∃ id, d.file? p = .ok id

section Follows

variable {base : Path} {written : List Path} {log : String} {s : Session} {d : Disk}
  (follows : Follows base written log s d) (normal : base.Normal)
  (all : ∀ p ∈ written, p.Normal) (below : ∀ p ∈ written, p.startsWith base = true)
  (back : FileLog.read base log = written)
include follows normal all below back

/-- If the paths are read from the log, cleaning takes their files, except the log itself. -/
theorem Follows.clean : FileLog.clean s.base s.written d =
    .ok ((written.filter (· ≠ FileLog.path base)).foldl Disk.remove d) := by
  have stale : written.filter (FileLog.isStale base s.written) =
      written.filter (· ≠ FileLog.path base) := by
    refine List.filter_congr fun p mem => ?_
    have free : s.written.any (p.same ·) = false := follows.writesOthers p mem
    have same : p.same (FileLog.path base) = decide (p = FileLog.path base) :=
      Bool.eq_iff_iff.2 (((all p mem).same_iff (FileLog.normal_path normal)).trans
        decide_eq_true_iff.symm)
    rw [FileLog.isStale, below p mem, free, same]
    simp
  unfold FileLog.clean
  rw [follows.sameBase, follows.log]
  dsimp only
  rw [back, stale]

/-- The session takes away the names of these files and no others, and writes to the log only. -/
theorem Follows.finish (once : written.Nodup) :
    (∀ place, (s.finish d).2.node? place =
      if place ∈ (written.filter (· ≠ FileLog.path base)).map Disk.places then none
      else d.node? place) ∧
    ∀ id, d.file? (FileLog.path base) ≠ .ok id → (s.finish d).2.content id = d.content id := by
  have cleaned := follows.clean normal all below back
  obtain ⟨id, found⟩ := Disk.file?_of_readText follows.log
  generalize isStale : written.filter (· ≠ FileLog.path base) = stale at cleaned ⊢
  have known : ∀ p ∈ stale, p ∈ written ∧ p ≠ FileLog.path base := by
    simp [← isStale]
  have stays := Disk.file?_removeAll (FileLog.normal_path normal)
    (fun p mem => all p (known p mem).1) (fun mem => (known _ mem).2 rfl) found
  have names := Disk.node?_removeAll (d := d) (fun p mem => all p (known p mem).1)
    (isStale ▸ once.filter _) fun p mem => follows.there p (known p mem).1
  obtain ⟨nodes, within⟩ := FileLog.write_there s.written stays
  unfold Session.finish
  rw [if_pos follows.cleans, cleaned]
  dsimp only
  split
  · rw [follows.sameBase]
    refine ⟨fun place => (Disk.node?_congr nodes place).trans (names place),
      fun other differs => ?_⟩
    rw [within.content other, Disk.content_removeAll]
    rintro rfl
    exact differs found
  · exact ⟨names, fun other _ => Disk.content_removeAll d stale other⟩

end Follows

/-- The log of a session that has finished is read back as the paths that were written exactly if
all its lines are legible. Then a session over the same base that writes none of them takes away the
names of their files and no others, and changes no contents but those of the log. -/
theorem log_roundtrip {options : SessionOptions} {registry : Registry} {d₀ d : Disk} {s : Site}
    (working : d₀.working.isAbsolute = true) (sound : d₀.Sound)
    (builds : ∀ entry ∈ registry.entries, entry.2.Builds)
    (run : Site.Run Site.Spared (.start options registry d₀) s)
    (logs : options.writeFileLog = true) (done : s.session.finish s.disk = (.ok (), d))
    (below : ∀ p ∈ s.session.written,
      p.startsWith s.session.base = true ∧ p ≠ s.session.base) :
    ∃ log, d.readText (FileLog.path s.session.base) = .ok log ∧
      (FileLog.read s.session.base log = s.session.written ↔
        ∀ p ∈ s.session.written, FileLog.Legible (FileLog.line s.session.base p)) ∧
      ((∀ p ∈ s.session.written, FileLog.Legible (FileLog.line s.session.base p)) →
        ∀ next d₁, Follows s.session.base s.session.written log next d₁ →
          (∀ place, (next.finish d₁).2.node? place =
            if place ∈ (s.session.written.filter
              (· ≠ FileLog.path s.session.base)).map Disk.places then none
            else d₁.node? place) ∧
          ∀ id, d₁.file? (FileLog.path s.session.base) ≠ .ok id →
            (next.finish d₁).2.content id = d₁.content id) := by
  have books := Site.books_of_run working (fun entry mem => (builds entry mem).there) run
  have kept := Site.kept_of_run working sound builds run
  obtain ⟨outer, ho, start⟩ : (Session.start options registry d₀).base.Normal :=
    Path.normal_absolutize working options.baseOutputDirectory
  obtain ⟨base, portable⟩ := Site.portable_of_run ho start run
  have legible := FileLog.read_render_iff ho base fun p mem =>
    FileLog.named_of_startsWith ho (books.tidy.normal p mem) (portable p mem)
      (base ▸ (below p mem).1) (base ▸ (below p mem).2)
  obtain ⟨d₁, cleaned, log⟩ := finish_ok books.tidy kept.sound done
  have same : s.session.options = options := books.options
  rw [same, if_pos logs] at log
  obtain ⟨id, found, -, content⟩ := FileLog.write_ok cleaned.sound log
  refine ⟨_, Disk.readText_of_render found content, legible, fun all next d₂ follows => ?_⟩
  exact follows.finish books.tidy.base books.tidy.normal (fun p mem => (below p mem).1)
    (legible.2 all) books.tidy.once

/-- A file of one session that the next one takes away. -/
theorem log_roundtrip_stale :
    let s₀ : Site := .start {} .builtins (.empty ⟨"/"⟩)
    ∃ s d, ((Disk.empty ⟨"/"⟩).working.isAbsolute = true ∧ (Disk.empty ⟨"/"⟩).Sound ∧
        (∀ entry ∈ Registry.builtins.entries, entry.2.Builds) ∧ Site.Run Site.Spared s₀ s ∧
        ({} : SessionOptions).writeFileLog = true ∧ s.session.finish s.disk = (.ok (), d) ∧
        ∀ p ∈ s.session.written, p.startsWith s.session.base = true ∧ p ≠ s.session.base) ∧
      s.session.written = [⟨"/a"⟩] ∧ ∃ log,
        FileLog.read ⟨"/"⟩ log = [⟨"/a"⟩] ∧
        Follows ⟨"/"⟩ [⟨"/a"⟩] log (.start {} .builtins d) d ∧
        ((Session.start {} .builtins d).finish d).2.node? ["a"] = none := by
  intro s₀
  let session : Session := { s₀.session with written := [⟨"/a"⟩] }
  let w : Writer := {
    dialect := .text "" none, output := ⟨⟨"/a"⟩, some 0⟩, directory := ⟨"/"⟩, settings := {}
    draft := { unit := .spaces 4 }, finished := false }
  let d : Disk := ⟨⟨"/"⟩, [(["a"], .file 0)], [[]], [0]⟩
  let d' : Disk := ⟨⟨"/"⟩, [(["a"], .file 0), (["FilesWritten.txt"], .file 1)], [[], [97, 10]], [0]⟩
  have served : (Site.start {} .builtins (.empty ⟨"/"⟩)).session.serve (.empty ⟨"/"⟩)
      (.ofDialect "a" (.text "" none)) = (.ok w, session, d) := rfl
  have run : Site.Run Site.Spared s₀ ⟨session, [{ writer := w }], d⟩ := .single (.served served)
  have done : session.finish d = (.ok (), d') := by
    dsimp only [session, s₀, d, d']
    rfl
  have sound : (Disk.empty ⟨"/"⟩).Sound := Disk.sound_empty _
  have below : ∀ p ∈ session.written, p.startsWith session.base = true ∧ p ≠ session.base := by
    dsimp only [session, s₀]
    decide
  obtain ⟨log, read, back, next⟩ :=
    log_roundtrip rfl sound Registry.builds_builtins run rfl done below
  have legible : ∀ p ∈ session.written, FileLog.Legible (FileLog.line session.base p) := by
    dsimp only [session, s₀]
    decide
  have follows : Follows ⟨"/"⟩ [⟨"/a"⟩] log (.start {} .builtins d') d' := {
    sameBase := by dsimp only [d']; rfl
    cleans := rfl
    writesOthers := fun _ _ => rfl
    log := read
    there := fun p mem => by
      rw [List.mem_singleton.1 mem]
      exact ⟨0, rfl⟩ }
  obtain ⟨names, -⟩ := next legible _ _ follows
  have gone := names ["a"]
  rw [if_pos (by dsimp only [session, s₀]; decide)] at gone
  exact ⟨⟨session, [{ writer := w }], d⟩, d',
    ⟨rfl, sound, Registry.builds_builtins, run, rfl, done, below⟩, rfl, log, back.2 legible,
    follows, gone⟩

end Session

end Emitter
