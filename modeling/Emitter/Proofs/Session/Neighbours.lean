import Emitter.Proofs.Disk.Nameless
import Emitter.Proofs.Session.Roundtrip

/-! Two sessions at one disk, their steps in any order. The locks keep each of them from writing to
the files that writers of the other hold, but a session that finishes cleans up by name, whoever
holds the file. So a writer puts its text at its path unless the other session has taken the name
away, and then in a file that no path leads to, with the same success
(`Pair.finish_in_place_unless_lost`). -/

namespace Emitter

/-! ## Locked files of others -/

theorem Party.Frees.orderly {d d' : Disk} {id : FileId} {path : Path} {after : Option Party}
    (h : Frees d id path after d') : d.Orderly (some id) d' := by
  refine h.within.orderly ?_
  rcases h.disk with rfl | ⟨bytes, rfl⟩
  · exact .of_nodes rfl (Nat.le_refl _)
  · exact .of_nodes rfl (Disk.grows_overwrite d id bytes).files

namespace Writer

theorem fresh_perform (w : Writer) (d : Disk) (operation : Operation) :
    d.Fresh (w.perform d operation).2.2 := by
  rcases Party.moves_perform w d operation with keeps | ⟨id, -, frees⟩
  · rw [keeps.disk]
    exact .refl d
  · exact frees.orderly.fresh

theorem fresh_drop (w : Writer) (d : Disk) (broken : Option Break) :
    d.Fresh (w.drop d broken) := by
  rcases held : w.output.held with _ | id
  · rw [Party.drop_free held]
    exact .refl d
  · exact (Party.frees_drop held d broken).orderly.fresh

theorem fresh_of_work {path : Path} {settings : Settings} {dialect : Dialect} {w₀ w : Writer}
    {d d₁ d₂ : Disk} (made : create path settings dialect d = (.ok w₀, d₁))
    (work : Run (fun _ => True) (fun _ _ => False) (w₀, d₁) (w, d₂)) : d.Fresh d₂ := by
  refine work.keeps (fun _ d' => d.Fresh d') ?_ ?_
    (Disk.fresh_reserve (reserve_of_create_ok made))
  · intro w d' operation _ fresh
    exact fresh.trans (w.fresh_perform d' operation)
  · intro _ _ _ nothing
    exact nothing.elim

/-- How finishing ends does not depend on the disk. -/
theorem finish_fst (w : Writer) (d d' : Disk) : (w.finish d).1 = (w.finish d').1 := by
  have ends := w.finish_ends d none
  generalize w.finish d = result at ends
  cases ends with
  | finished finished => rw [finish_finished finished]
  | refused unfinished refuses => rw [(Ends.refused unfinished refuses).finish_eq]
  | unclosed unfinished accepts open_ => rw [finish_unclosed unfinished accepts open_]
  | gone unfinished accepts closed held => rw [(Ends.gone unfinished accepts closed held).finish_eq]
  | written unfinished accepts closed held =>
    rw [(Ends.written unfinished accepts closed held).finish_eq]

end Writer

namespace Factory.Built

variable {path : Path} {settings : Settings} {d d' : Disk}

theorem fresh {result : Except Error Writer} (h : Built path settings d (result, d')) :
    d.Fresh d' := by
  rcases h with e | ⟨made, e⟩ | ⟨made, work⟩ | ⟨made, work, e, broken⟩
  · exact .refl d
  · exact Disk.fresh_reserve (Writer.reserve_of_create_error made)
  · exact Writer.fresh_of_work made work
  · exact (Writer.fresh_of_work made work).trans (Writer.fresh_drop _ _ broken)

/-- Making a writer, with success or not, does nothing to the files that are locked. -/
theorem orderly {result : Except Error Writer} (sound : d.Sound)
    (h : Built path settings d (result, d')) : d.Orderly none d' := by
  rcases result with e | w
  · rcases h.failed_cases sound with more | ⟨id, -, within, free⟩
    · exact more.orderly h.fresh
    · exact (within.orderly h.fresh).unlocked free
  · obtain ⟨id, -, within, free⟩ := h.holds sound
    exact (within.orderly h.fresh).unlocked free

end Factory.Built

namespace Handout

/-- The file that the writer holds. -/
def held (h : Handout) : Option FileId := if h.dropped then none else h.writer.output.held

theorem held_of_there {h : Handout} (there : h.dropped = false) :
    h.held = h.writer.output.held :=
  if_neg (by simp [there])

theorem held_perform {h : Handout} (there : h.dropped = false) (d : Disk)
    (operation : Writer.Operation) :
    (h.perform d operation).1.held = (h.writer.perform d operation).2.1.output.held :=
  held_of_there there

@[simp] theorem held_drop (h : Handout) (d : Disk) (broken : Option Break) :
    (h.drop d broken).1.held = none := rfl

/-- The files that writers hold, with the paths that they were opened at. -/
def holdings (handouts : List Handout) : List (Path × FileId) :=
  handouts.filterMap fun h => h.held.map (h.path, ·)

theorem mem_holdings {handouts : List Handout} {p : Path} {id : FileId} :
    (p, id) ∈ holdings handouts ↔ ∃ h ∈ handouts, h.path = p ∧ h.held = some id := by
  rw [holdings, List.mem_filterMap]
  refine exists_congr fun h => and_congr_right fun _ => ?_
  rw [Option.map_eq_some_iff]
  constructor
  · rintro ⟨other, held, same⟩
    cases same
    exact ⟨rfl, held⟩
  · rintro ⟨rfl, held⟩
    exact ⟨id, held, rfl⟩

theorem holdings_append (a b : List Handout) : holdings (a ++ b) = holdings a ++ holdings b :=
  List.filterMap_append

theorem holdings_middle (before after : List Handout) (h : Handout) :
    holdings (before ++ h :: after) =
      holdings before ++ ((h.held.map (h.path, ·)).toList ++ holdings after) := by
  rcases held : h.held with _ | id <;> simp [holdings, held]

end Handout

/-- A file that is there, locked and still empty. -/
structure Disk.Taken (d : Disk) (id : FileId) : Prop where
  file : id < d.files.length
  locked : d.isLocked id = true
  empty : d.content id = []

theorem Disk.Orderly.taken {own : Option FileId} {d d' : Disk} (h : d.Orderly own d')
    {id : FileId} (differs : own ≠ some id) (taken : d.Taken id) : d'.Taken id where
  file := Nat.lt_of_lt_of_le taken.file h.files
  locked := h.locked id taken.locked differs
  empty := (h.content id taken.locked differs).trans taken.empty

/-! ## Steps of a session -/

namespace Site

open Handout (holdings)

/-- What a step does to the files that writers of the session hold: nothing, or one is taken that
nobody had locked, or one is let go. -/
inductive Shifts (s t : Site) : Prop
  | kept (same : holdings t.handouts = holdings s.handouts) (orderly : s.disk.Orderly none t.disk)
  | taken {p : Path} {id : FileId} (new : p ∉ s.session.written)
    (free : s.disk.isLocked id = false)
    (more : holdings t.handouts = holdings s.handouts ++ [(p, id)])
    (orderly : s.disk.Orderly none t.disk) (found : t.disk.file? p = .ok id)
    (taken : t.disk.Taken id)
  | freed {before after : List (Path × FileId)} {p : Path} {id : FileId}
    (had : holdings s.handouts = before ++ (p, id) :: after)
    (left : holdings t.handouts = before ++ after) (orderly : s.disk.Orderly (some id) t.disk)

/-- A writer keeps what it holds, or lets go of it. -/
theorem shifts_of_moves {session : Session} {before after : List Handout} {h h' : Handout}
    {d d' : Disk} (moves : d' = d ∧ h'.held = h.held ∧ h'.path = h.path ∨
      ∃ id, h.held = some id ∧ h'.held = none ∧ d.Orderly (some id) d') :
    Shifts ⟨session, before ++ h :: after, d⟩ ⟨session, before ++ h' :: after, d'⟩ := by
  rcases moves with ⟨rfl, held, path⟩ | ⟨id, held, none, orderly⟩
  · refine .kept ?_ (.refl d')
    rw [Handout.holdings_middle, Handout.holdings_middle, held, path]
  · have had : holdings (before ++ h :: after) =
        holdings before ++ (h.path, id) :: holdings after := by
      rw [Handout.holdings_middle, held]
      rfl
    have left : holdings (before ++ h' :: after) = holdings before ++ holdings after := by
      rw [Handout.holdings_middle, none]
      rfl
    exact .freed had left orderly

theorem Step.shifts {start : Session} {s t : Site}
    (builds : ∀ entry ∈ start.registry.entries, entry.2.BuildsThere) (books : Books start s)
    (sound : s.disk.Sound) (h : Step (fun _ _ => False) s t) : Shifts s t := by
  have built : ∀ {request factory}, Request.factory? s.session.registry request = some factory →
      factory.BuildsThere := fun asked =>
    Request.factory?_property (fun dialect => (Factory.builds_ofDialect dialect).there)
      (books.registry ▸ builds) asked
  cases h with
  | @served _ request w session d h =>
    obtain ⟨factory, p, asked, ⟨-, new⟩, made, rfl⟩ := books.tidy.serve_ok h
    obtain ⟨used, built⟩ := built asked p s.session.options.settings s.disk
    rw [made] at built
    have orderly := built.orderly sound
    obtain ⟨id, holds, -, free⟩ := built.holds sound
    by_cases finished : w.finished = true
    · refine .kept ?_ orderly
      have held : (({ writer := w } : Handout).held) = none := by
        rw [Handout.held, holds.held, finished]
        rfl
      rw [Handout.holdings_append]
      simp [holdings, held]
    · rw [Bool.not_eq_true] at finished
      refine .taken new free ?_ orderly holds.place
        ⟨holds.file, holds.locked finished, holds.empty finished⟩
      have held : (({ writer := w } : Handout).held) = some id := by
        rw [Handout.held, holds.held, finished]
        rfl
      rw [Handout.holdings_append]
      simp [holdings, held, Handout.path, holds.named]
  | @refused _ request e session d h =>
    obtain ⟨rfl, rfl | ⟨factory, p, asked, -, made⟩⟩ := books.tidy.serve_error h
    · exact .kept rfl (.refl s.disk)
    obtain ⟨used, built⟩ := built asked p s.session.options.settings s.disk
    rw [made] at built
    exact .kept rfl (built.orderly sound)
  | @used _ _ _ h d there operation =>
    refine shifts_of_moves ?_
    rw [Handout.held_perform there, Handout.held_of_there there, Handout.path_perform]
    rcases Party.moves_perform h.writer d operation with keeps | ⟨id, held, frees⟩
    · exact .inl ⟨keeps.disk, keeps.held, rfl⟩
    · exact .inr ⟨id, held, frees.held, frees.orderly⟩
  | @dropped _ _ _ h d there broken =>
    refine shifts_of_moves ?_
    rw [Handout.held_drop, Handout.held_of_there there]
    rcases held : h.writer.output.held with _ | id
    · exact .inl ⟨Party.drop_free held d broken, rfl, rfl⟩
    · exact .inr ⟨id, rfl, rfl, (Party.frees_drop held d broken).orderly⟩
  | waited nothing => exact nothing.elim

end Site

/-! ## Finishing a session -/

theorem FileLog.write_orderly (base : Path) (written : List Path) (d : Disk) :
    d.Orderly none (write base written d).2 := by
  unfold write
  split
  · next reserved =>
    exact (Disk.extends_of_reserve_error reserved).orderly (Disk.fresh_reserve reserved)
  · next o d₁ reserved =>
    have fresh := Disk.fresh_reserve reserved
    obtain ⟨id, rfl, -, within, -, free⟩ := Disk.within_reserve reserved
    have later := @Disk.Within.commit id d₁ (({} : FileFormat).render (render base written))
    exact ((within.trans later).orderly (fresh.trans (.of_nodes rfl later.files))).unlocked free

namespace Session

/-- The paths that a session takes away when it finishes, whoever holds the files there. -/
def discards (s : Session) (d : Disk) : List Path :=
  if s.options.cleanStaleOutput then
    match d.readText (FileLog.path s.base) with
    | .ok log => (FileLog.read s.base log).filter (FileLog.isStale s.base s.written)
    | .error _ => []
  else []

theorem discards_cases {s : Session} {d : Disk} {p : Path} (mem : p ∈ s.discards d) :
    ∃ log, p ∈ FileLog.read s.base log ∧ FileLog.isStale s.base s.written p = true := by
  unfold discards at mem
  split at mem
  · split at mem
    · exact ⟨_, List.mem_filter.1 mem⟩
    · cases mem
  · cases mem

theorem normal_of_mem_discards {s : Session} {d : Disk} {p : Path} (normal : s.base.Normal)
    (mem : p ∈ s.discards d) : p.Normal := by
  obtain ⟨log, named, -⟩ := discards_cases mem
  exact FileLog.normal_of_mem_read normal named

/-- A session takes away none of the files that it wrote. -/
theorem not_mem_written_of_mem_discards {s : Session} {d : Disk} {p : Path}
    (mem : p ∈ s.discards d) : p ∉ s.written := by
  obtain ⟨log, -, stale⟩ := discards_cases mem
  intro written
  rw [FileLog.isStale_of_mem s.base written] at stale
  cases stale

/-- A session that finishes takes away these names, and does nothing else to locked files. -/
theorem finish_orderly (s : Session) (d : Disk) :
    ((s.discards d).foldl Disk.remove d).Orderly none (s.finish d).2 := by
  have log : ∀ d : Disk, d.Orderly none
      (if s.options.writeFileLog then FileLog.write s.base s.written d else (.ok (), d)).2 := by
    intro d
    split
    · exact FileLog.write_orderly s.base s.written d
    · exact .refl d
  unfold finish discards FileLog.clean
  by_cases cleans : s.options.cleanStaleOutput = true
  · rw [if_pos cleans, if_pos cleans]
    rcases d.readText (FileLog.path s.base) with fault | text
    · cases fault
      case notFound => exact log d
      all_goals exact .refl d
    · exact log _
  · rw [if_neg cleans, if_neg cleans]
    exact log d

end Session

/-! ## Two sessions -/

/-- A session and its writers, with the paths where the other session took the name of a file that
a writer held. -/
structure Tenant where
  session : Session
  handouts : List Handout
  lost : List Path

namespace Tenant

def start (options : SessionOptions) (registry : Registry) (d : Disk) : Tenant :=
  ⟨.start options registry d, [], []⟩

def site (t : Tenant) (d : Disk) : Site := ⟨t.session, t.handouts, d⟩

def holdings (t : Tenant) : List (Path × FileId) := Handout.holdings t.handouts

def lose (t : Tenant) (gone : List Path) : Tenant :=
  { t with lost := t.lost ++ gone.filter (· ∈ t.holdings.map Prod.fst) }

theorem mem_lose {t : Tenant} {gone : List Path} {p : Path} :
    p ∈ (t.lose gone).lost ↔ p ∈ t.lost ∨ p ∈ gone ∧ ∃ id, (p, id) ∈ t.holdings := by
  simp [lose]

/-- What is always so for a tenant: its writers hold files of their own, each at its path or, if the
name was lost, nowhere. -/
structure Stands (start : Session) (t : Tenant) (d : Disk) : Prop where
  books : Site.Books start (t.site d)
  taken : ∀ p id, (p, id) ∈ t.holdings → d.Taken id
  named : ∀ p id, (p, id) ∈ t.holdings → p ∉ t.lost → d.file? p = .ok id
  nameless : ∀ p id, (p, id) ∈ t.holdings → p ∈ t.lost → d.Nameless id
  written : ∀ p ∈ t.lost, p ∈ t.session.written

theorem stands_start (options : SessionOptions) (registry : Registry) {d : Disk}
    (working : d.working.isAbsolute = true) :
    (start options registry d).Stands (.start options registry d) d where
  books := ⟨rfl, rfl, rfl, Session.tidy_start options registry working, rfl⟩
  taken _ _ mem := absurd mem List.not_mem_nil
  named _ _ mem := absurd mem List.not_mem_nil
  nameless _ _ mem := absurd mem List.not_mem_nil
  written _ mem := absurd mem List.not_mem_nil

section Stands

variable {start : Session} {t : Tenant} {d d' : Disk} (stands : t.Stands start d)
include stands

theorem Stands.mem_written {p : Path} {id : FileId} (mem : (p, id) ∈ t.holdings) :
    p ∈ t.session.written := by
  obtain ⟨h, known, rfl, -⟩ := Handout.mem_holdings.1 mem
  exact stands.books.paths_of_mem known

/-- The tenant after a step of its own, of which each file that is held is an old one or has just
been taken at a new path. -/
theorem Stands.step {site : Site} {own : Option FileId} (books : Site.Books start site)
    (more : t.session.written ⊆ site.session.written) (orderly : d.Orderly own site.disk)
    (held : ∀ p id, (p, id) ∈ Handout.holdings site.handouts →
      (p, id) ∈ t.holdings ∧ own ≠ some id ∨
        p ∉ t.session.written ∧ site.disk.Taken id ∧ site.disk.file? p = .ok id) :
    Stands start ⟨site.session, site.handouts, t.lost⟩ site.disk where
  books := { books with }
  taken p id mem := by
    rcases held p id mem with ⟨old, differs⟩ | ⟨-, taken, -⟩
    · exact orderly.taken differs (stands.taken p id old)
    · exact taken
  named p id mem kept := by
    rcases held p id mem with ⟨old, -⟩ | ⟨-, -, found⟩
    · exact Disk.file?_of_grows orderly.toGrows (stands.named p id old kept)
    · exact found
  nameless p id mem lost := by
    rcases held p id mem with ⟨old, -⟩ | ⟨new, -⟩
    · exact orderly.fresh.nameless (stands.taken p id old).file (stands.nameless p id old lost)
    · exact absurd (stands.written p lost) new
  written p lost := more (stands.written p lost)

theorem Stands.orderly {own : Option FileId} (orderly : d.Orderly own d')
    (apart : ∀ p id, (p, id) ∈ t.holdings → own ≠ some id) : t.Stands start d' :=
  have books : Site.Books start (t.site d') := { stands.books with }
  stands.step books (List.Subset.refl _) orderly fun p id mem => .inl ⟨mem, apart p id mem⟩

theorem Stands.removeAll {gone : List Path} (sound : d.Sound) (normal : ∀ p ∈ gone, p.Normal) :
    (t.lose gone).Stands start (gone.foldl Disk.remove d) where
  books := { stands.books with }
  taken p id mem := by
    obtain ⟨file, locked, empty⟩ := stands.taken p id mem
    refine ⟨?_, ?_, ?_⟩
    · rwa [Disk.files_removeAll]
    · rwa [Disk.isLocked, Disk.locked_removeAll]
    · rwa [Disk.content_removeAll]
  named p id mem kept := by
    rw [mem_lose, not_or, not_and] at kept
    have apart : p ∉ gone := fun here => kept.2 here ⟨id, mem⟩
    have hp := stands.books.tidy.normal p (stands.mem_written mem)
    exact Disk.file?_removeAll hp normal apart (stands.named p id mem kept.1)
  nameless p id mem lost := by
    by_cases old : p ∈ t.lost
    · exact Disk.removeAll_keeps (P := (Disk.Nameless · id)) (fun _ q _ none => none.remove q)
        (stands.nameless p id mem old)
    · obtain ⟨here, -⟩ := (mem_lose.1 lost).resolve_left old
      exact Disk.nameless_removeAll sound normal here (stands.named p id mem old)
  written p lost := by
    rcases mem_lose.1 lost with old | ⟨-, id, mem⟩
    · exact stands.written p old
    · exact stands.mem_written mem

/-- Nothing is lost where no writer holds a file. -/
theorem Stands.lose_eq {gone : List Path} (apart : ∀ p ∈ gone, p ∉ t.session.written) :
    t.lose gone = t := by
  have none : gone.filter (· ∈ t.holdings.map Prod.fst) = [] := by
    refine List.filter_eq_nil_iff.2 fun p mem => ?_
    rw [decide_eq_true_iff, List.mem_map]
    rintro ⟨⟨q, id⟩, held, rfl⟩
    exact apart q mem (stands.mem_written held)
  rw [lose, none, List.append_nil]

end Stands

end Tenant

/-- Two sessions at one disk. -/
structure Pair where
  first : Tenant
  second : Tenant
  disk : Disk

namespace Pair

def start (options : SessionOptions) (registry : Registry) (options' : SessionOptions)
    (registry' : Registry) (d : Disk) : Pair :=
  ⟨.start options registry d, .start options' registry' d, d⟩

def swap (s : Pair) : Pair := ⟨s.second, s.first, s.disk⟩

/-- The first session finishes, with success or not. -/
def finishFirst (s : Pair) : Pair :=
  ⟨s.first, s.second.lose (s.first.session.discards s.disk), (s.first.session.finish s.disk).2⟩

/-- The first session serves a request or not, a writer of it is used or dropped, or it finishes. -/
inductive Turn (s : Pair) : Pair → Prop
  | worked {site : Site} (h : Site.Step (fun _ _ => False) (s.first.site s.disk) site) :
    Turn s ⟨⟨site.session, site.handouts, s.first.lost⟩, s.second, site.disk⟩
  | ended : Turn s s.finishFirst

def Step (s t : Pair) : Prop := Turn s t ∨ Turn s.swap t.swap

def Run : Pair → Pair → Prop := Relation.ReflTransGen Step

/-- Each file that is held has one holder. -/
structure Settled (start start' : Session) (s : Pair) : Prop where
  sound : s.disk.Sound
  once : ((s.first.holdings ++ s.second.holdings).map Prod.snd).Nodup
  first : s.first.Stands start s.disk
  second : s.second.Stands start' s.disk

section Settled

variable {start start' : Session} {s t : Pair}

theorem Settled.swap (settled : s.Settled start start') : s.swap.Settled start' start where
  sound := settled.sound
  once := (List.perm_append_comm.map Prod.snd).nodup_iff.1 settled.once
  first := settled.second
  second := settled.first

/-- A file that is locked by a writer is not one that was free. -/
theorem Settled.not_mem_of_free (settled : s.Settled start start') {id : FileId}
    (free : s.disk.isLocked id = false) :
    id ∉ (s.first.holdings ++ s.second.holdings).map Prod.snd := by
  intro mem
  obtain ⟨⟨p, other⟩, held, rfl⟩ := List.mem_map.1 mem
  have taken : s.disk.Taken other := by
    rcases List.mem_append.1 held with mine | others
    · exact settled.first.taken p other mine
    · exact settled.second.taken p other others
  cases free.symm.trans taken.locked

theorem Settled.worked (there : ∀ entry ∈ start.registry.entries, entry.2.BuildsThere)
    (settled : s.Settled start start') {site : Site}
    (h : Site.Step (fun _ _ => False) (s.first.site s.disk) site) :
    Settled start start' ⟨⟨site.session, site.handouts, s.first.lost⟩, s.second, site.disk⟩ := by
  have first := settled.first
  have second := settled.second
  have once := settled.once
  have books := first.books.step there h
  have more : s.first.session.written ⊆ site.session.written := first.books.subset_written h
  have shifts := h.shifts there first.books settled.sound
  -- What is taken was locked by nobody and what is let go is held by no one else, so the files of
  -- the second tenant are left alone, and no file gets a second holder.
  rcases shifts with ⟨same, orderly⟩ | @⟨p, id, new, free, same, orderly, found, taken⟩ |
    @⟨before, after, p, id, had, left, orderly⟩
  · refine ⟨orderly.sound settled.sound, ?_, ?_, second.orderly orderly nofun⟩
    · show ((Handout.holdings site.handouts ++ s.second.holdings).map Prod.snd).Nodup
      rw [same]
      exact once
    · refine first.step books more orderly fun p id mem => .inl ⟨?_, nofun⟩
      rw [same] at mem
      exact mem
  · refine ⟨orderly.sound settled.sound, ?_, ?_, second.orderly orderly nofun⟩
    · show ((Handout.holdings site.handouts ++ s.second.holdings).map Prod.snd).Nodup
      have fresh := settled.not_mem_of_free free
      rw [List.map_append] at once fresh
      rw [same, List.append_assoc, List.map_append, List.map_append]
      exact List.nodup_middle.2 (List.nodup_cons.2 ⟨fresh, once⟩)
    · refine first.step books more orderly fun q other mem => ?_
      rw [same] at mem
      rcases List.mem_append.1 mem with old | here
      · exact .inl ⟨old, nofun⟩
      · cases List.mem_singleton.1 here
        exact .inr ⟨new, taken, found⟩
  · have had : s.first.holdings = before ++ (p, id) :: after := had
    rw [had, List.append_assoc, List.cons_append, List.map_append, List.map_cons,
      List.nodup_middle, ← List.map_append, List.nodup_cons] at once
    obtain ⟨gone, once⟩ := once
    have differs : ∀ q other, (q, other) ∈ before ++ (after ++ s.second.holdings) →
        some id ≠ some other := by
      rintro q other mem same
      cases same
      exact gone (List.mem_map.2 ⟨(q, id), mem, rfl⟩)
    refine ⟨orderly.sound settled.sound, ?_, ?_, second.orderly orderly ?_⟩
    · show ((Handout.holdings site.handouts ++ s.second.holdings).map Prod.snd).Nodup
      rwa [left, List.append_assoc]
    · refine first.step books more orderly fun q other mem => .inl ⟨?_, ?_⟩
      · rw [left] at mem
        rw [had]
        simp only [List.mem_append, List.mem_cons] at mem ⊢
        tauto
      · rw [left] at mem
        refine differs q other ?_
        simp only [List.mem_append] at mem ⊢
        tauto
    · exact fun q other mem => differs q other (by simp [mem])

/-- Where the first session finishes, the second loses the names that are taken away. -/
theorem Settled.finishFirst (settled : s.Settled start start') :
    s.finishFirst.Settled start start' := by
  have first := settled.first
  have normal : ∀ p ∈ s.first.session.discards s.disk, p.Normal := fun p mem =>
    Session.normal_of_mem_discards first.books.tidy.base mem
  -- Its own paths are written, so it discards none of them.
  have own : s.first.lose (s.first.session.discards s.disk) = s.first :=
    first.lose_eq fun p mem => Session.not_mem_written_of_mem_discards mem
  have first' := first.removeAll settled.sound normal
  rw [own] at first'
  have second' := settled.second.removeAll settled.sound normal
  have orderly := s.first.session.finish_orderly s.disk
  exact ⟨orderly.sound (settled.sound.removeAll _), settled.once, first'.orderly orderly nofun,
    second'.orderly orderly nofun⟩

theorem Settled.turn (there : ∀ entry ∈ start.registry.entries, entry.2.BuildsThere)
    (settled : s.Settled start start') (h : Turn s t) : t.Settled start start' := by
  cases h with
  | worked h => exact settled.worked there h
  | ended => exact settled.finishFirst

theorem Settled.step (there : ∀ entry ∈ start.registry.entries, entry.2.BuildsThere)
    (there' : ∀ entry ∈ start'.registry.entries, entry.2.BuildsThere)
    (settled : s.Settled start start') (h : Step s t) : t.Settled start start' := by
  rcases h with turn | turn
  · exact settled.turn there turn
  · exact (settled.swap.turn there' turn).swap

end Settled

theorem settled_of_run {options options' : SessionOptions} {registry registry' : Registry}
    {d₀ : Disk} {s : Pair} (working : d₀.working.isAbsolute = true) (sound : d₀.Sound)
    (there : ∀ entry ∈ registry.entries, entry.2.BuildsThere)
    (there' : ∀ entry ∈ registry'.entries, entry.2.BuildsThere)
    (run : Run (start options registry options' registry' d₀) s) :
    s.Settled (.start options registry d₀) (.start options' registry' d₀) := by
  induction run with
  | refl =>
    exact ⟨sound, List.nodup_nil, Tenant.stands_start options registry working,
      Tenant.stands_start options' registry' working⟩
  | tail _ step ih => exact ih.step there there' step

end Pair

/-! ## The writers of one session beside another -/

namespace Handout

/-- A writer whose file stands at its path, where its bytes are found if finishing it succeeds. -/
structure InPlace (h : Handout) (id : FileId) (d : Disk) : Prop where
  place : d.file? h.path = .ok id
  finish : (h.writer.finish d).1 = .ok () → (h.writer.finish d).2.2.file? h.path = .ok id ∧
    (h.writer.finish d).2.2.content id = h.writer.settings.format.render h.writer.text

/-- A writer whose file no path leads to, before and after finishing it. -/
structure Stranded (h : Handout) (id : FileId) (d : Disk) : Prop where
  place : ∀ p, d.file? p ≠ .ok id
  finish : ∀ p, (h.writer.finish d).2.2.file? p ≠ .ok id

end Handout

namespace Tenant

section Stands

variable {start : Session} {t : Tenant} {d : Disk} (stands : t.Stands start d) {h : Handout}
  (mem : h ∈ t.handouts) {id : FileId} (held : h.held = some id)
include stands mem held

theorem Stands.inPlace (kept : h.path ∉ t.lost) : h.InPlace id d := by
  have holds : (h.path, id) ∈ t.holdings := Handout.mem_holdings.2 ⟨h, mem, rfl, held⟩
  have place := stands.named h.path id holds kept
  have taken := stands.taken h.path id holds
  refine ⟨place, fun succeeds => ?_⟩
  rcases h.writer.finish_cases d none with ⟨failed, -⟩ | ⟨other, written, held', finished, whole⟩
  · exact absurd succeeds failed
  obtain rfl := whole succeeds
  obtain rfl : id = other := by
    rw [Handout.held] at held
    split at held
    · cases held
    · exact Option.some.inj (held.symm.trans held')
  rw [finished]
  refine ⟨Disk.file?_of_grows ?_ place, Disk.content_overwrite taken.file taken.empty _⟩
  exact (Disk.grows_overwrite d id h.writer.bytes).trans (Disk.grows_unlock _ id)

theorem Stands.stranded (lost : h.path ∈ t.lost) : h.Stranded id d := by
  have holds : (h.path, id) ∈ t.holdings := Handout.mem_holdings.2 ⟨h, mem, rfl, held⟩
  have nameless := stands.nameless h.path id holds lost
  have file := (stands.taken h.path id holds).file
  have nameless' := (h.writer.fresh_perform d .finish).nameless file nameless
  exact ⟨nameless.file?_ne, nameless'.file?_ne⟩

end Stands

end Tenant

namespace Pair

/-- After any steps of two sessions in any order, whatever log they find: when a writer that holds a
file is finished with success, its bytes are found at its path, unless the other session took the
name away while the writer held the file; then they are where no path leads. If the other session
finishes first, it takes the name away exactly if it discards the path, by the log as it then is, and
finishing the writer succeeds or fails as it would have before. -/
theorem finish_in_place_unless_lost {options options' : SessionOptions}
    {registry registry' : Registry} {d₀ : Disk} {s : Pair}
    (working : d₀.working.isAbsolute = true) (sound : d₀.Sound)
    (there : ∀ entry ∈ registry.entries, entry.2.BuildsThere)
    (there' : ∀ entry ∈ registry'.entries, entry.2.BuildsThere)
    (run : Run (start options registry options' registry' d₀) s) :
    ∀ h ∈ s.first.handouts, ∀ id, h.held = some id →
      (h.path ∉ s.first.lost → h.InPlace id s.disk) ∧
      (h.path ∈ s.first.lost → h.Stranded id s.disk) ∧
      (h.writer.finish (s.second.session.finish s.disk).2).1 = (h.writer.finish s.disk).1 ∧
      (h.path ∉ s.first.lost →
        (h.path ∉ s.second.session.discards s.disk →
          h.InPlace id (s.second.session.finish s.disk).2) ∧
        (h.path ∈ s.second.session.discards s.disk →
          h.Stranded id (s.second.session.finish s.disk).2)) := by
  intro h mem id held
  have settled := settled_of_run working sound there there' run
  have now := settled.first
  -- The second session finishes: the pair is turned around for it and back.
  have later := settled.swap.finishFirst.second
  have holds : (h.path, id) ∈ s.first.holdings := Handout.mem_holdings.2 ⟨h, mem, rfl, held⟩
  refine ⟨now.inPlace mem held, now.stranded mem held, h.writer.finish_fst _ _, fun kept =>
    ⟨fun spared => later.inPlace mem held ?_, fun gone => later.stranded mem held ?_⟩⟩
  · rw [finishFirst, Tenant.mem_lose]
    exact fun lost => lost.elim kept fun both => spared both.1
  · rw [finishFirst, Tenant.mem_lose]
    exact .inr ⟨gone, id, holds⟩

/-- The log of an earlier session names the file that a writer holds while the other session
finishes. -/
theorem finish_in_place_unless_lost_log :
    let d₀ : Disk := ⟨⟨"/"⟩, [(["FilesWritten.txt"], .file 0)], [[97, 10]], []⟩
    ∃ s h, (d₀.working.isAbsolute = true ∧ d₀.Sound ∧
        (∀ entry ∈ Registry.builtins.entries, entry.2.BuildsThere) ∧
        Run (start {} .builtins {} .builtins d₀) s) ∧
      h ∈ s.first.handouts ∧ h.path = ⟨"/a"⟩ ∧ h.held = some 1 ∧
      s.disk.file? ⟨"/a"⟩ = .ok 1 ∧
      (h.writer.finish (s.second.session.finish s.disk).2).1 = .ok () ∧
      ∀ p, (h.writer.finish (s.second.session.finish s.disk).2).2.2.file? p ≠ .ok 1 := by
  intro d₀
  let w : Writer := {
    dialect := .text "" none, output := ⟨⟨"/a"⟩, some 1⟩, directory := ⟨"/"⟩, settings := {}
    draft := { unit := .spaces 4 }, finished := false }
  let session : Session := { Session.start {} .builtins d₀ with written := [⟨"/a"⟩] }
  let d : Disk := ⟨⟨"/"⟩, [(["FilesWritten.txt"], .file 0), (["a"], .file 1)], [[97, 10], []], [1]⟩
  let s : Pair := ⟨⟨session, [{ writer := w }], []⟩, .start {} .builtins d₀, d⟩
  have sound : d₀.Sound := by
    have file : ((Disk.empty ⟨"/"⟩).addFile ["FilesWritten.txt"]).Sound :=
      (Disk.extends_addFile _ _).sound (Disk.sound_empty _)
    exact (@Disk.Within.setContent 0 _ [97, 10]).sound file
  have there : ∀ entry ∈ Registry.builtins.entries, entry.2.BuildsThere :=
    fun entry mem => (Registry.builds_builtins entry mem).there
  have served : (Session.start {} .builtins d₀).serve d₀ (.ofDialect "a" (.text "" none)) =
      (.ok w, session, d) := by
    dsimp only [d₀]
    rfl
  let site : Site := ⟨session, [{ writer := w }], d⟩
  have step : Site.Step (fun _ _ => False) ((Tenant.start {} .builtins d₀).site d₀) site :=
    .served served
  have turn : Turn (start {} .builtins {} .builtins d₀) s := @Turn.worked _ site step
  have run : Run (start {} .builtins {} .builtins d₀) s := .single (.inl turn)
  have here : ({ writer := w } : Handout) ∈ s.first.handouts := List.mem_cons_self
  have working : d₀.working.isAbsolute = true := by
    dsimp only [d₀]
    rfl
  have held : ({ writer := w } : Handout).held = some 1 := rfl
  obtain ⟨inPlace, -, same, later⟩ :=
    finish_in_place_unless_lost working sound there there run _ here 1 held
  have kept : ({ writer := w } : Handout).path ∉ s.first.lost := List.not_mem_nil
  have gone : ({ writer := w } : Handout).path ∈ s.second.session.discards s.disk := by
    have all : s.second.session.discards s.disk = [⟨"/a"⟩] := by
      dsimp only [s, d, d₀]
      rfl
    rw [all]
    exact List.mem_singleton_self _
  have stranded := (later kept).2 gone
  have done : (w.finish d).1 = .ok () := by
    dsimp only [w, d]
    rfl
  have ends : (w.finish (s.second.session.finish s.disk).2).1 = .ok () := same.trans done
  have place : s.disk.file? ⟨"/a"⟩ = .ok 1 := (inPlace kept).place
  have nowhere : ∀ p, (w.finish (s.second.session.finish s.disk).2).2.2.file? p ≠ .ok 1 :=
    stranded.finish
  have named : ({ writer := w } : Handout).path = ⟨"/a"⟩ := rfl
  exact ⟨s, { writer := w }, ⟨working, sound, there, run⟩, here, named, held, place, ends, nowhere⟩

end Pair

end Emitter
