import Emitter.Proofs.Disk.Reservation
import Emitter.Proofs.Writer.Lifecycle
import Emitter.Session.Basic
import Mathlib.Logic.Relation

/-! A session at work: requests that it serves or refuses, the writers that it gave out, used and
dropped in any order, and a disk that others change as they may. The text that a writer has put in
its file is kept beside it. -/

namespace Emitter

/-! ## Factories -/

/-- How a factory that builds its writer at one path can end: it does not begin, it cannot make the
writer, it gives it away after working on it, or it drops it. Its errors are its own. -/
inductive Factory.Built (path : Path) (settings : Settings) (d : Disk) :
    Except Error Writer × Disk → Prop
  | declined (e : Error) : Built path settings d (.error e, d)
  | failed {dialect : Dialect} {cause : Error} {d' : Disk}
    (made : Writer.create path settings dialect d = (.error cause, d')) (e : Error) :
    Built path settings d (.error e, d')
  | given {dialect : Dialect} {w₀ w : Writer} {d₁ d₂ : Disk}
    (made : Writer.create path settings dialect d = (.ok w₀, d₁))
    (work : Writer.Run (fun _ => True) (fun _ _ => False) (w₀, d₁) (w, d₂)) :
    Built path settings d (.ok w, d₂)
  | dropped {dialect : Dialect} {w₀ w : Writer} {d₁ d₂ : Disk}
    (made : Writer.create path settings dialect d = (.ok w₀, d₁))
    (work : Writer.Run (fun _ => True) (fun _ _ => False) (w₀, d₁) (w, d₂)) (e : Error)
    (broken : Option Break) : Built path settings d (.error e, w.drop d₂ broken)

/-- Builds its writers where it is told to, with settings of its own if it likes. -/
def Factory.BuildsThere (factory : Factory) : Prop :=
  ∀ path settings d, ∃ used, Built path used d (factory path settings d)

/-- Builds its writers where it is told to, as it is told to. -/
def Factory.Builds (factory : Factory) : Prop :=
  ∀ path settings d, Built path settings d (factory path settings d)

/-- Leaves it to the session to report conflicts. -/
def Factory.Honest (factory : Factory) : Prop :=
  ∀ path settings d p, (factory path settings d).1 ≠ .error (.outputConflict p)

theorem Factory.Builds.there {factory : Factory} (h : factory.Builds) : factory.BuildsThere :=
  fun path settings d => ⟨settings, h path settings d⟩

theorem Factory.builds_ofDialect (dialect : Dialect) : (Factory.ofDialect dialect).Builds := by
  intro path settings d
  rcases made : Writer.create path settings dialect d with ⟨e | w, d'⟩
  · rw [ofDialect, made]
    exact .failed made e
  · rw [ofDialect, made]
    exact .given made (.refl _)

theorem Factory.honest_ofDialect (dialect : Dialect) : (Factory.ofDialect dialect).Honest := by
  intro path settings d p reported
  rcases made : Writer.create path settings dialect d with ⟨e | w, d'⟩
  · have conflict : e = .outputConflict p := by
      rw [ofDialect, made] at reported
      exact Except.error.inj reported
    rcases Disk.error_of_reserve (Writer.reserve_of_create_error made) with locked | ⟨_, _, fault⟩
    · cases conflict.symm.trans locked
    · cases conflict.symm.trans fault
  · rw [ofDialect, made] at reported
    cases reported

/-- What the factories of a registry have in common, they keep where one like them is registered. -/
theorem Registry.forall_register {P : Factory → Prop} {r : Registry}
    (all : ∀ entry ∈ r.entries, P entry.2) {factory : Factory} (new : P factory) (kind : String) :
    ∀ entry ∈ (r.register kind factory).entries, P entry.2 := by
  intro entry mem
  rw [register] at mem
  split at mem
  · obtain ⟨old, known, rfl⟩ := List.mem_map.1 mem
    by_cases same : old.1 = kind
    · rw [if_pos same]
      exact new
    · rw [if_neg same]
      exact all old known
  · rcases List.mem_append.1 mem with old | here
    · exact all entry old
    · rw [List.mem_singleton.1 here]
      exact new

theorem Registry.builds_dialects (dialects : List Dialect) {r : Registry}
    (all : ∀ entry ∈ r.entries, entry.2.Builds) :
    ∀ entry ∈ (dialects.foldl registerDialect r).entries, entry.2.Builds := by
  induction dialects generalizing r with
  | nil => exact all
  | cons dialect rest ih =>
    exact ih (forall_register all (Factory.builds_ofDialect dialect.plain) dialect.kind)

theorem Registry.builds_builtins : ∀ entry ∈ builtins.entries, entry.2.Builds :=
  builds_dialects _ nofun

theorem Registry.create_of_contains {r : Registry} {kind : String} (h : r.contains kind = true) :
    ∃ factory, (kind, factory) ∈ r.entries ∧ r.create kind = factory := by
  rcases found : r.entries.lookup kind with _ | factory
  · rw [List.lookup_eq_none_iff] at found
    rw [contains, kinds, List.contains_iff_mem, List.mem_map] at h
    obtain ⟨entry, mem, rfl⟩ := h
    simpa using found entry mem
  · obtain ⟨before, after, entries, -⟩ := List.lookup_eq_some_iff.1 found
    refine ⟨factory, by rw [entries]; simp, ?_⟩
    funext path settings d
    rw [create, found]

/-! ## Requests -/

/-- For a path: a writer of a dialect, or of a kind. -/
inductive Request where
  | ofDialect (path : String) (dialect : Dialect)
  | ofKind (kind path : String)

namespace Request

def path : Request → String
  | ofDialect path _ => path
  | ofKind _ path => path

/-- The factory that makes the writer; an unknown kind has none. -/
def factory? (registry : Registry) : Request → Option Factory
  | ofDialect _ dialect => some (.ofDialect dialect)
  | ofKind kind _ => if registry.contains kind then some (registry.create kind) else none

/-- What all factories of a registry have in common with those of dialects, the factory of a request
has. -/
theorem factory?_property {P : Factory → Prop} (dialects : ∀ dialect, P (.ofDialect dialect))
    {registry : Registry} (kinds : ∀ entry ∈ registry.entries, P entry.2) {request : Request}
    {factory : Factory} (h : request.factory? registry = some factory) : P factory := by
  rcases request with ⟨path, dialect⟩ | ⟨kind, path⟩
  · cases h
    exact dialects dialect
  · rw [factory?] at h
    split at h
    · next known =>
      obtain ⟨entry, mem, created⟩ := Registry.create_of_contains known
      cases h
      rw [created]
      exact kinds _ mem
    · cases h

end Request

namespace Session

def serve (s : Session) (d : Disk) : Request → Except Error Writer × Session × Disk
  | .ofDialect path dialect => s.openDialect path dialect d
  | .ofKind kind path => s.openKind kind path d

theorem serve_of_factory {s : Session} {request : Request} {factory : Factory}
    (h : request.factory? s.registry = some factory) (d : Disk) :
    s.serve d request = s.openWith request.path factory d := by
  rcases request with ⟨path, dialect⟩ | ⟨kind, path⟩
  · cases h
    rfl
  · rw [Request.factory?] at h
    split at h
    · next known =>
      cases h
      rw [serve, openKind, if_pos known]
      rfl
    · cases h

theorem serve_of_unknown {s : Session} {kind : String} (h : s.registry.contains kind = false)
    (path : String) (d : Disk) :
    s.serve d (.ofKind kind path) = (.error (.unknownWriterKind kind), s, d) := by
  rw [serve, openKind, if_neg (by simp [h])]

@[simp] theorem options_record (s : Session) (p : Path) : (s.record p).options = s.options := by
  simp only [record]; split <;> rfl

@[simp] theorem base_record (s : Session) (p : Path) : (s.record p).base = s.base := by
  simp only [record]; split <;> rfl

theorem record_free {s : Session} {p : Path} (free : s.isTaken p = false) :
    s.record p = { s with written := s.written ++ [p] } := by
  rw [record, if_neg (by simp [free])]

/-- What is given back is taken out of its place, whatever was recorded after it. -/
theorem release_append {s : Session} {p : Path} (free : s.isTaken p = false) (later : List Path) :
    ({ s with written := s.written ++ p :: later } : Session).release p =
      { s with written := s.written ++ later } := by
  have others : ∀ q ∈ s.written, ¬ p.same q = true := fun q mem => by
    simpa using List.any_eq_false.1 free q mem
  have itself : p.same p = true := (Path.same_iff p p).2 rfl
  rw [release, List.eraseP_append_right _ others, List.eraseP_cons_of_pos itself]

theorem release_record {s : Session} {p : Path} (free : s.isTaken p = false) :
    (s.record p).release p = s := by
  rw [record_free free, release_append free, List.append_nil]

theorem mem_written_record {s : Session} {p q : Path} (mem : q ∈ (s.record p).written) :
    q ∈ s.written ∨ q = p := by
  rcases taken : s.isTaken p with _ | _
  · rw [record_free taken] at mem
    exact (List.mem_append.1 mem).imp_right List.mem_singleton.1
  · rw [record, if_pos taken] at mem
    exact .inl mem

theorem mem_written_release {s : Session} {p q : Path} (mem : q ∈ (s.release p).written) :
    q ∈ s.written :=
  List.mem_of_mem_eraseP mem

theorem claim_eq_ok {s t : Session} {request : String} {p : Path} :
    s.claim request = .ok (p, t) ↔ s.pick request = .ok p ∧ t = s.record p := by
  rw [claim]
  rcases s.pick request with e | q
  · simp [Except.map]
  · simp only [Except.map, Except.ok.injEq, Prod.mk.injEq]
    constructor
    · rintro ⟨rfl, rfl⟩
      exact ⟨rfl, rfl⟩
    · rintro ⟨rfl, rfl⟩
      exact ⟨rfl, rfl⟩

theorem serve_of_pick {s : Session} {request : Request} {factory : Factory} {p : Path}
    (asked : request.factory? s.registry = some factory) (picked : s.pick request.path = .ok p)
    (d : Disk) :
    s.serve d request = match factory p s.options.settings d with
      | (.error e, d) => (.error e, (s.record p).release p, d)
      | (.ok w, d) => (.ok w, s.record p, d) := by
  have claimed : s.claim request.path = .ok (p, s.record p) := claim_eq_ok.2 ⟨picked, rfl⟩
  rw [serve_of_factory asked]
  rcases made : factory p s.options.settings d with ⟨_ | _, _⟩ <;>
    simp only [openWith, claimed, options_record, made]

/-- How a request can end: refused before a factory is asked, failed by it, or served. -/
inductive Ends (s : Session) (d : Disk) (request : Request) :
    Except Error Writer × Session × Disk → Prop
  | refused (e : Error) : Ends s d request (.error e, s, d)
  | failed {factory : Factory} {p : Path} {e : Error} {d' : Disk}
    (asked : request.factory? s.registry = some factory) (picked : s.pick request.path = .ok p)
    (made : factory p s.options.settings d = (.error e, d')) :
    Ends s d request (.error e, (s.record p).release p, d')
  | served {factory : Factory} {p : Path} {w : Writer} {d' : Disk}
    (asked : request.factory? s.registry = some factory) (picked : s.pick request.path = .ok p)
    (made : factory p s.options.settings d = (.ok w, d')) :
    Ends s d request (.ok w, s.record p, d')

theorem serve_ends (s : Session) (d : Disk) (request : Request) :
    Ends s d request (s.serve d request) := by
  rcases asked : request.factory? s.registry with _ | factory
  · rcases request with ⟨path, dialect⟩ | ⟨kind, path⟩
    · cases asked
    · rw [serve_of_unknown (by simpa [Request.factory?] using asked)]
      exact .refused _
  · rcases picked : s.pick request.path with e | p
    · rw [serve_of_factory asked, openWith, claim, picked]
      exact .refused e
    · rw [serve_of_pick asked picked]
      split
      · next made => exact .failed asked picked made
      · next made => exact .served asked picked made

/-- A request is served at a path that the session has picked, which is recorded from then on. -/
theorem serve_ok {s session : Session} {d d' : Disk} {request : Request} {w : Writer}
    (h : s.serve d request = (.ok w, session, d')) :
    ∃ factory p, request.factory? s.registry = some factory ∧ s.pick request.path = .ok p ∧
      factory p s.options.settings d = (.ok w, d') ∧ session = s.record p := by
  have ends := s.serve_ends d request
  rw [h] at ends
  rcases ends with _ | _ | ⟨asked, picked, made⟩
  exact ⟨_, _, asked, picked, made, rfl⟩

theorem serve_picked {s : Session} {d d' : Disk} {request : Request} {factory : Factory}
    {p : Path} {w : Writer} (asked : request.factory? s.registry = some factory)
    (picked : s.pick request.path = .ok p) (free : s.isTaken p = false)
    (made : factory p s.options.settings d = (.ok w, d')) :
    s.serve d request = (.ok w, { s with written := s.written ++ [p] }, d') := by
  rw [serve_of_pick asked picked, made, record_free free]

/-- A request that is not served leaves everything alone, unless a factory has failed on it; then
its path is given back. -/
theorem serve_error {s session : Session} {d d' : Disk} {request : Request} {e : Error}
    (h : s.serve d request = (.error e, session, d')) :
    session = s ∧ d' = d ∨ ∃ factory p, request.factory? s.registry = some factory ∧
      s.pick request.path = .ok p ∧ factory p s.options.settings d = (.error e, d') ∧
      session = (s.record p).release p := by
  have ends := s.serve_ends d request
  rw [h] at ends
  rcases ends with _ | ⟨asked, picked, made⟩ | _
  · exact .inl ⟨rfl, rfl⟩
  · exact .inr ⟨_, _, asked, picked, made, rfl⟩

end Session

/-! ## Writers that were given out -/

/-- With the text that it has put in its file, if it was finished with success. -/
structure Handout where
  writer : Writer
  text : Option String := none
  dropped : Bool := false

/-- What a writer puts in its file if it is finished now. -/
def Writer.text (w : Writer) : String := w.prepared.render

namespace Handout

def path (h : Handout) : Path := h.writer.path

def perform (h : Handout) (d : Disk) (operation : Writer.Operation) : Handout × Disk :=
  let (result, writer, d) := h.writer.perform d operation
  let text := match operation, result with
    | .finishing _, .ok _ => some h.writer.text
    | _, _ => h.text
  ({ h with writer, text }, d)

def drop (h : Handout) (d : Disk) (broken : Option Break) : Handout × Disk :=
  ({ h with dropped := true }, h.writer.drop d broken)

end Handout

/-! ## Runs -/

/-- A session, its writers in the order of opening, and the disk. -/
structure Site where
  session : Session
  handouts : List Handout
  disk : Disk

namespace Site

def start (options : SessionOptions) (registry : Registry) (d : Disk) : Site :=
  ⟨.start options registry d, [], d⟩

/-- Writers are used in any way and any order, until they are dropped; what they write goes through or
breaks off. -/
inductive Step (others : Site → Disk → Prop) : Site → Site → Prop
  | served {s : Site} {request : Request} {w : Writer} {session : Session} {d : Disk}
    (h : s.session.serve s.disk request = (.ok w, session, d)) :
    Step others s ⟨session, s.handouts ++ [{ writer := w }], d⟩
  | refused {s : Site} {request : Request} {e : Error} {session : Session} {d : Disk}
    (h : s.session.serve s.disk request = (.error e, session, d)) :
    Step others s ⟨session, s.handouts, d⟩
  | used {session : Session} {before after : List Handout} {h : Handout} {d : Disk}
    (there : h.dropped = false) (operation : Writer.Operation) :
    Step others ⟨session, before ++ h :: after, d⟩
      ⟨session, before ++ (h.perform d operation).1 :: after, (h.perform d operation).2⟩
  | dropped {session : Session} {before after : List Handout} {h : Handout} {d : Disk}
    (there : h.dropped = false) (broken : Option Break) :
    Step others ⟨session, before ++ h :: after, d⟩
      ⟨session, before ++ (h.drop d broken).1 :: after, (h.drop d broken).2⟩
  | waited {s : Site} {d : Disk} (h : others s d) : Step others s ⟨s.session, s.handouts, d⟩

def Run (others : Site → Disk → Prop) : Site → Site → Prop := Relation.ReflTransGen (Step others)

end Site

/-! ## Paths of writers -/

namespace Writer

theorem path_perform (w : Writer) (d : Disk) (operation : Operation) :
    (w.perform d operation).2.1.path = w.path := by
  rcases w.perform_frame d operation with ⟨broken, rfl⟩ | ⟨draft, dialect, performed⟩
  · rw [perform]
    rcases w.finish_cases d broken with ⟨-, output, -⟩ | ⟨id, written, -, finished, -⟩
    · rw [path, output, path]
    · rw [finished]
      rfl
  · rw [performed]
    rfl

theorem path_of_create {p : Path} {settings : Settings} {dialect : Dialect} {d d' : Disk}
    {w : Writer} (h : create p settings dialect d = (.ok w, d')) : w.path = p := by
  obtain ⟨d₁, id, -, -, -, output, -⟩ := Disk.reserve_ok_cases (reserve_of_create_ok h)
  rw [path, output]

end Writer

/-- A writer that was given away stands at the path that was asked for. -/
theorem Factory.Built.path {p : Path} {settings : Settings} {d d' : Disk} {w : Writer}
    (h : Built p settings d (.ok w, d')) : w.path = p := by
  rcases h with _ | _ | ⟨made, work⟩ | _
  have kept := work.keeps (fun w' _ => w'.path = p)
    (fun w' d operation _ same => (w'.path_perform d operation).trans same)
    (fun _ _ _ none => none.elim) (Writer.path_of_create made)
  exact kept

@[simp] theorem Handout.path_perform (h : Handout) (d : Disk) (operation : Writer.Operation) :
    (h.perform d operation).1.path = h.path :=
  h.writer.path_perform d operation

@[simp] theorem Handout.path_drop (h : Handout) (d : Disk) (broken : Option Break) :
    (h.drop d broken).1.path = h.path := rfl

end Emitter
