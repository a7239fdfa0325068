import Emitter.Proofs.Include.Edits
import Emitter.Proofs.Scope.Return

/-! What becomes of an include. Every call is accepted. One that comes before the file is written is
on a line of it in the end, whatever is done in between, as the includes only grow. One that comes
later is accepted as well, and lost: unlike the calls that add text, the ones that add includes do
not ask whether the writer is finished. -/

namespace Emitter

/-! ## Lines of a text -/

namespace Text

/-- A text after which a line begins. -/
def EndsLine (text : String) : Prop := text = "" ∨ ∃ before, text = before ++ "\n"

theorem EndsLine.append {a b : String} (ha : EndsLine a) (hb : EndsLine b) : EndsLine (a ++ b) := by
  rcases hb with rfl | ⟨before, rfl⟩
  · rwa [String.append_empty]
  · exact .inr ⟨a ++ before, String.append_assoc.symm⟩

theorem endsLine_join {texts : List String} (h : ∀ text ∈ texts, EndsLine text) :
    EndsLine (String.join texts) := by
  induction texts with
  | nil => exact .inl rfl
  | cons text rest ih =>
    rw [List.forall_mem_cons] at h
    rw [String.join_cons]
    exact h.1.append (ih h.2)

/-- A whole line of a text. -/
def HasLine (text line : String) : Prop :=
  ∃ before after, text = before ++ line ++ "\n" ++ after ∧ EndsLine before

theorem HasLine.append {text line before : String} (h : HasLine text line) (hb : EndsLine before)
    (after : String) : HasLine (before ++ text ++ after) line := by
  obtain ⟨before', after', rfl, ends⟩ := h
  refine ⟨before ++ before', after' ++ after, ?_, hb.append ends⟩
  simp only [String.append_assoc]

end Text

namespace Includes

open Text

theorem endsLine_block (open_ close : String) (paths : List String) :
    EndsLine (block open_ close paths) := by
  refine (endsLine_join fun text mem => ?_).append ?_
  · obtain ⟨path, -, rfl⟩ := List.mem_map.1 mem
    exact .inr ⟨_, rfl⟩
  · split
    · exact .inl rfl
    · exact .inr ⟨"", rfl⟩

theorem hasLine_block (open_ close : String) {path : String} {paths : List String}
    (mem : path ∈ paths) :
    HasLine (block open_ close paths) ("#include " ++ open_ ++ path ++ close) := by
  obtain ⟨before, after, rfl⟩ := List.append_of_mem mem
  let line (p : String) := "#include " ++ open_ ++ p ++ close ++ "\n"
  have ends : EndsLine (String.join (before.map line)) := by
    refine endsLine_join fun text mem => ?_
    obtain ⟨p, -, rfl⟩ := List.mem_map.1 mem
    exact .inr ⟨_, rfl⟩
  refine ⟨String.join (before.map line), String.join (after.map line) ++
    (if (before ++ path :: after).isEmpty then "" else "\n"), ?_, ends⟩
  rw [block, List.map_append, String.join_append, List.map_cons, String.join_cons]
  simp only [String.append_assoc, line]

namespace Call

/-- The file or the entry of the search path that a call names. -/
def resolved (i : Includes) (working : Path) : Call → Path
  | quoted path => i.resolve working path
  | system path => (Path.ofPortable path).normalize

/-- The includes of the block that the call belongs to. -/
def paths (i : Includes) : Call → List Path
  | quoted _ => i.quoted.paths
  | system _ => i.system.paths

/-- The line of a path in the block that the call belongs to. -/
def line (directory p : Path) : Call → String
  | quoted _ => "#include \"" ++ IncludeSet.line directory p ++ "\""
  | system _ => "#include <" ++ IncludeSet.line directory p ++ ">"

end Call

theorem hasLine_preamble {i : Includes} {call : Call} {p : Path} (mem : p ∈ call.paths i)
    (directory : Path) : HasLine (i.preamble directory) (call.line directory p) := by
  cases call with
  | quoted path =>
    have rendered : IncludeSet.line directory p ∈ i.quoted.render directory :=
      IncludeSet.mem_render.2 ⟨p, mem, rfl⟩
    have whole := (hasLine_block "\"" "\"" rendered).append (.inl rfl)
      (block "<" ">" (i.system.render directory))
    rwa [String.empty_append] at whole
  | system path =>
    have rendered : IncludeSet.line directory p ∈ i.system.render directory :=
      IncludeSet.mem_render.2 ⟨p, mem, rfl⟩
    have whole := (hasLine_block "<" ">" rendered).append
      (endsLine_block "\"" "\"" (i.quoted.render directory)) ""
    rwa [String.append_empty] at whole

end Includes

open Includes Text

theorem Writer.endsLine_headerText (marker header : String) :
    EndsLine (headerText marker header) := by
  refine endsLine_join fun text mem => ?_
  obtain ⟨line, -, rfl⟩ := List.mem_map.1 mem
  exact .inr ⟨_, rfl⟩

theorem Writer.endsLine_header (w : Writer) :
    EndsLine ((w.settings.header.map (headerText w.dialect.commentMarker)).getD "") := by
  cases w.settings.header with
  | none => exact .inl rfl
  | some header => exact endsLine_headerText _ header

/-- A language of the caller's own can begin the body in the middle of a line. -/
theorem Dialect.endsLine_preamble {dialect : Dialect}
    (builtin : ∀ language state, dialect ≠ .custom language state) (directory : Path) :
    EndsLine (dialect.preamble directory) := by
  cases dialect with
  | text marker preamble =>
    cases preamble with
    | none => exact .inl rfl
    | some line => exact .inr ⟨line, rfl⟩
  | cLike => exact .inl rfl
  | cpp includes => exact (endsLine_block ..).append (endsLine_block ..)
  | custom language state => exact absurd rfl (builtin language state)

/-- The includes stand after the header and before the body. -/
theorem Writer.hasLine_render {w : Writer} {i : Includes} (cpp : w.dialect = .cpp i)
    {call : Includes.Call} {p : Path} (mem : p ∈ call.paths i) :
    HasLine w.render (call.line w.directory p) := by
  have preamble : w.dialect.preamble w.directory = i.preamble w.directory := by rw [cpp]; rfl
  rw [render, preamble]
  exact (hasLine_preamble mem w.directory).append w.endsLine_header w.draft.body

/-! ## Includes only grow -/

namespace Includes

structure IsNormalized (i : Includes) : Prop where
  quoted : i.quoted.IsNormalized
  system : i.system.IsNormalized

/-- Nothing is taken out, and what is put in is in normal form. -/
structure Grows (i i' : Includes) : Prop where
  quoted : i.quoted.paths ⊆ i'.quoted.paths
  system : i.system.paths ⊆ i'.system.paths
  normalized : i.IsNormalized → i'.IsNormalized

variable {i i' : Includes}

theorem grows_of_paths (quoted : i'.quoted.paths = i.quoted.paths)
    (system : i'.system.paths = i.system.paths) : i.Grows i' where
  quoted := by rw [quoted]; exact List.Subset.refl _
  system := by rw [system]; exact List.Subset.refl _
  normalized h := ⟨fun p mem => h.quoted p (quoted ▸ mem), fun p mem => h.system p (system ▸ mem)⟩

theorem Grows.paths (grows : i.Grows i') (call : Call) : call.paths i ⊆ call.paths i' := by
  cases call with
  | quoted => exact grows.quoted
  | system => exact grows.system

theorem subset_insert (set : IncludeSet) (p : Path) : set.paths ⊆ (set.insert p).paths := by
  unfold IncludeSet.insert
  split
  · exact List.Subset.refl _
  · exact List.subset_append_left _ _

theorem grows_add (working : Path) (i : Includes) (call : Call) : i.Grows (call.add working i) where
  quoted := by
    cases call with
    | quoted path => exact subset_insert _ _
    | system path => exact List.Subset.refl _
  system := by
    cases call with
    | quoted path => exact List.Subset.refl _
    | system path => exact subset_insert _ _
  normalized := by
    intro normalized
    cases call with
    | quoted path =>
      exact ⟨normalized.quoted.insert (Path.isNormalized_absolutize _ _), normalized.system⟩
    | system path => exact ⟨normalized.quoted, normalized.system.insert ⟨_, rfl⟩⟩

theorem Edits.grows {working : Path} (edits : i.Edits working i') : i.Grows i' := by
  cases edits with
  | nothing => exact grows_of_paths rfl rfl
  | add call => exact grows_add working i call
  | setBase path => exact grows_of_paths rfl rfl
  | setOrder order => exact grows_of_paths rfl rfl

/-- Where a call is accepted, the path is there. -/
theorem mem_add (normalized : i.IsNormalized) (working : Path) (call : Call) :
    call.resolved i working ∈ call.paths (call.add working i) := by
  cases call with
  | quoted path =>
    exact (IncludeSet.mem_insert normalized.quoted (Path.isNormalized_absolutize _ _) _).2 (.inr rfl)
  | system path => exact (IncludeSet.mem_insert normalized.system ⟨_, rfl⟩ _).2 (.inr rfl)

end Includes

/-! ## Header files -/

namespace Script.Bench

/-- What a call other than finishing does to the writer of a header file: it changes the text and
adds to the includes. -/
structure Adds (b b' : Bench) (i : Includes) : Prop where
  writer : ∃ draft i', i.Grows i' ∧ b'.writer = { b.writer with draft, dialect := .cpp i' }
  disk : b'.disk = b.disk
  byKind : b'.handle.byKind = b.handle.byKind

variable {b : Bench} {i : Includes}

theorem Edited.adds {b' : Bench} (edited : Edited b b' i) : Adds b b' i := by
  obtain ⟨draft, i', edits, writer⟩ := edited.writer
  exact ⟨⟨draft, i', edits.grows, writer⟩, edited.disk, edited.byKind⟩

/-- The file is written, and released. -/
structure Commits (id : FileId) (b b' : Bench) : Prop where
  unfinished : b.writer.finished = false
  writer : b'.writer = b.writer.committed
  disk : b'.disk = (b.disk.overwrite id b.writer.bytes).unlock id
  byKind : b'.handle.byKind = b.handle.byKind

/-- A header file, opened with its own methods, as it is until it is dropped. -/
structure Header (path : Path) (settings : Settings) (id : FileId) (directory : Path)
    (i : Includes) (b : Bench) : Prop where
  byKind : b.handle.byKind = false
  directory : b.writer.directory = directory
  cpp : b.writer.dialect = .cpp i
  normalized : i.IsNormalized
  holds : Writer.Holds path settings id b.writer b.disk

section Header

variable {path : Path} {settings : Settings} {id : FileId} {directory : Path}
  {others : Disk → Disk → Prop} {b' : Bench} (header : Header path settings id directory i b)
include header

/-- A header file has no hook. -/
theorem Header.prepared : b.writer.prepared = b.writer :=
  Writer.prepared_of_idle (by rw [header.cpp]; rfl)

theorem Header.finish_cases : Adds b b.finish.2 i ∨ Commits id b b.finish.2 := by
  unfold Bench.finish
  cases finished : b.writer.finished with
  | true =>
    rw [Writer.finish_finished finished]
    exact .inl (edited_refl header.cpp).adds
  | false =>
    rcases header.holds.finish_cases finished with ⟨e, failed⟩ | ⟨succeeded, -⟩
    · rw [failed, header.prepared]
      exact .inl (edited_refl header.cpp).adds
    · rw [succeeded]
      exact .inr ⟨finished, rfl, rfl, rfl⟩

/-- What can happen next: the text and the includes grow, the file is written, or others touch the
disk. -/
theorem Header.next_cases (next : Next others b b') :
    Adds b b' i ∨ Commits id b b' ∨ ∃ d, others b.disk d ∧ b' = { b with disk := d } := by
  rcases edited_next header.cpp next with rfl | edited | waited
  · exact header.finish_cases.imp_right .inl
  · exact .inl edited.adds
  · exact .inr (.inr waited)

/-- It stays a header file, with more includes. -/
theorem Header.next (next : Next (Disk.Spares path id) b b') :
    ∃ i', i.Grows i' ∧ Header path settings id directory i' b' := by
  have holds := header.holds
  rcases header.next_cases next with ⟨⟨draft, i', grows, writer⟩, disk, byKind⟩ | commits |
    ⟨d, spares, rfl⟩
  · refine ⟨i', grows, byKind.trans header.byKind, ?_, ?_, grows.normalized header.normalized, ?_⟩
    · rw [writer]
      exact header.directory
    · rw [writer]
    · rw [writer, disk]
      exact ⟨holds.named, holds.setup, holds.place, holds.file, holds.held, holds.empty,
        holds.locked⟩
  · refine ⟨i, grows_of_paths rfl rfl, commits.byKind.trans header.byKind, ?_, ?_,
      header.normalized, ?_⟩
    · rw [commits.writer, Writer.committed, header.prepared]
      exact header.directory
    · rw [commits.writer, Writer.committed, header.prepared]
      exact header.cpp
    · rw [commits.writer, commits.disk]
      exact holds.committed _
  · exact ⟨i, grows_of_paths rfl rfl, header.byKind, header.directory, header.cpp,
      header.normalized, holds.wait spares⟩

theorem Header.later (later : Later (Disk.Spares path id) b b') :
    ∃ i', Header path settings id directory i' b' := by
  induction later with
  | refl => exact ⟨i, header⟩
  | tail _ next ih =>
    obtain ⟨i', header'⟩ := ih
    obtain ⟨i'', -, header''⟩ := header'.next next
    exact ⟨i'', header''⟩

/-- Written once, the file is what it is. -/
theorem Header.next_finished (finished : b.writer.finished = true)
    (next : Next (Disk.Spares path id) b b') :
    b'.writer.finished = true ∧ b'.disk.content id = b.disk.content id := by
  rcases header.next_cases next with ⟨⟨draft, i', -, writer⟩, disk, -⟩ | commits | ⟨d, spares, rfl⟩
  · rw [writer, disk]
    exact ⟨finished, rfl⟩
  · exact absurd (commits.unfinished.symm.trans finished) Bool.false_ne_true
  · exact ⟨finished, spares.content⟩

theorem Header.later_finished (finished : b.writer.finished = true)
    (later : Later (Disk.Spares path id) b b') :
    b'.writer.finished = true ∧ b'.disk.content id = b.disk.content id := by
  induction later with
  | refl => exact ⟨finished, rfl⟩
  | tail before next ih =>
    obtain ⟨i', header'⟩ := header.later before
    obtain ⟨finished', content⟩ := header'.next_finished ih.1 next
    exact ⟨finished', content.trans ih.2⟩

/-- An include is accepted, whether the writer is finished or not. -/
theorem Header.include (call : Call) :
    (b.perform call.command).1 = .done ∧
      (b.perform call.command).2.writer.finished = b.writer.finished ∧
      (b.perform call.command).2.disk = b.disk ∧
      Header path settings id directory (call.add b.disk.working i) (b.perform call.command).2 := by
  have holds := header.holds
  rw [perform_include header.byKind header.cpp]
  refine ⟨rfl, rfl, rfl, header.byKind, header.directory, rfl,
    (grows_add b.disk.working i call).normalized header.normalized, ?_⟩
  exact ⟨holds.named, holds.setup, holds.place, holds.file, holds.held, holds.empty, holds.locked⟩

end Header

/-- A path that is included, and once the file is written has its line there. -/
structure Included (settings : Settings) (id : FileId) (directory : Path) (call : Call) (p : Path)
    (i : Includes) (b : Bench) : Prop where
  mem : p ∈ call.paths i
  written : b.writer.finished = true →
    ∃ text, b.disk.content id = settings.format.render text ∧
      HasLine text (call.line directory p)

section Included

variable {path : Path} {settings : Settings} {id : FileId} {directory : Path} {call : Call}
  {p : Path} {b' : Bench}

theorem Included.next (header : Header path settings id directory i b)
    (included : Included settings id directory call p i b)
    (next : Next (Disk.Spares path id) b b') :
    ∃ i', Header path settings id directory i' b' ∧
      Included settings id directory call p i' b' := by
  obtain ⟨i', grows, header'⟩ := header.next next
  refine ⟨i', header', grows.paths call included.mem, fun finished' => ?_⟩
  cases finished : b.writer.finished with
  | true =>
    rw [(header.next_finished finished next).2]
    exact included.written finished
  | false =>
    -- Of all steps only the commit finishes the writer, and it writes the includes as they are then.
    rcases header.next_cases next with ⟨⟨draft, i', -, writer⟩, -, -⟩ | commits | ⟨d, -, rfl⟩
    · rw [writer] at finished'
      exact absurd (finished.symm.trans finished') Bool.false_ne_true
    · have line := Writer.hasLine_render header.cpp included.mem
      rw [commits.disk, header.holds.content_commit finished, Writer.bytes, header.prepared,
        ← header.holds.setup, ← header.directory]
      exact ⟨_, rfl, line⟩
    · exact absurd (finished.symm.trans finished') Bool.false_ne_true

theorem Included.later (header : Header path settings id directory i b)
    (included : Included settings id directory call p i b)
    (later : Later (Disk.Spares path id) b b') :
    ∃ i', Header path settings id directory i' b' ∧
      Included settings id directory call p i' b' := by
  induction later with
  | refl => exact ⟨i, header, included⟩
  | tail _ next ih =>
    obtain ⟨i', header', included'⟩ := ih
    exact included'.next header' next

end Included

theorem header_create {path : Path} {settings : Settings} {order : IncludeOrder} {d d' : Disk}
    {w : Writer} (valid : d.Valid)
    (created : Writer.create path settings (.cpp (.withOrder order)) d = (.ok w, d')) :
    ∃ id, ∀ mark tokens, Header path settings id w.directory (.withOrder order)
      ⟨⟨w, false, mark⟩, d', tokens⟩ := by
  obtain ⟨id, holds⟩ := Writer.holds_create valid created
  have cpp : w.dialect = .cpp (.withOrder order) :=
    (Writer.new_of_create (congrArg Prod.fst created)).1
  exact ⟨id, fun mark tokens => ⟨rfl, rfl, cpp, ⟨nofun, nofun⟩, holds⟩⟩

/-- An include of a header file is accepted at any time. If the writer is not finished then, the
include has its line in the file once that is written, whatever happens in between and after. If it
is finished, the file stays what it is, and the include is lost. The calls that are meant are all in
the logs of scripts, also those inside closure forms. -/
theorem include_written {path : Path} {settings : Settings} {order : IncludeOrder} {d d' : Disk}
    {w : Writer} (valid : d.Valid)
    (created : Writer.create path settings (.cpp (.withOrder order)) d = (.ok w, d')) :
    ∃ id, ∀ (mark : Nat) (tokens : Table Token) (b : Bench),
      Later (Disk.Spares path id) ⟨⟨w, false, mark⟩, d', tokens⟩ b →
      (∃ i, b.writer.dialect = .cpp i ∧ ∀ call : Call,
        (b.perform call.command).1 = .done ∧
        ∀ b', Later (Disk.Spares path id) (b.perform call.command).2 b' →
          b'.disk.file? path = .ok id ∧
          (b.writer.finished = false → b'.writer.finished = true →
            ∃ text, b'.disk.content id = settings.format.render text ∧
              HasLine text (call.line w.directory (call.resolved i b.disk.working))) ∧
          (b.writer.finished = true → b'.disk.content id = b.disk.content id)) ∧
      ∀ acts, ∀ entry ∈ (b.runAll acts).1, ∀ call : Call, entry.deed = .inl call.command →
        Called (Disk.Spares path id) b (b.runAll acts).2.2 call.command entry.reply := by
  obtain ⟨id, start⟩ := header_create valid created
  refine ⟨id, fun mark tokens b before => ⟨?_, fun acts entry mem call =>
    (traced_runAll _ b acts).called entry mem call.command⟩⟩
  obtain ⟨i, header⟩ := (start mark tokens).later before
  refine ⟨i, header.cpp, fun call => ?_⟩
  obtain ⟨accepted, same, disk, header'⟩ := header.include call
  refine ⟨accepted, fun b' after => ?_⟩
  obtain ⟨i', header''⟩ := header'.later after
  refine ⟨header''.holds.place, fun unfinished finished' => ?_, fun finished => ?_⟩
  · have included : Included settings id w.directory call (call.resolved i b.disk.working)
        (call.add b.disk.working i) (b.perform call.command).2 := by
      refine ⟨mem_add header.normalized b.disk.working call, fun finished => ?_⟩
      exact absurd ((same.trans unfinished).symm.trans finished) Bool.false_ne_true
    obtain ⟨_, -, included'⟩ := included.later header' after
    exact included'.written finished'
  · rw [(header'.later_finished (same.trans finished) after).2, disk]

/-- One header is included in time and one too late. -/
theorem include_written_late :
    let w : Writer := {
      dialect := .cpp (.withOrder .ordinal), output := ⟨⟨"a.h"⟩, some 0⟩, directory := ⟨"/"⟩
      settings := {}, draft := { unit := .spaces 4 }, finished := false }
    let d : Disk := ⟨⟨"/"⟩, [(["a.h"], .file 0)], [[]], [0]⟩
    let start : Bench := ⟨⟨w, false, 0⟩, d, []⟩
    let early : Call := .quoted "x.h"
    let late : Call := .quoted "late.h"
    let b := ((start.perform early.command).2.perform .finish).2
    ((Disk.empty ⟨"/"⟩).Valid ∧
      Writer.create ⟨"a.h"⟩ {} (.cpp (.withOrder .ordinal)) (.empty ⟨"/"⟩) = (.ok w, d)) ∧
      ∃ id, (start.perform early.command).1 = .done ∧ (b.perform late.command).1 = .done ∧
        (∃ text, b.disk.content id = ({} : FileFormat).render text ∧
          HasLine text "#include \"x.h\"") ∧
        (b.perform late.command).2.disk.content id = b.disk.content id := by
  intro w d start early late b
  have valid : (Disk.empty ⟨"/"⟩).Valid := Disk.valid_empty ⟨"/"⟩
  have created : Writer.create ⟨"a.h"⟩ {} (.cpp (.withOrder .ordinal)) (.empty ⟨"/"⟩) =
      (.ok w, d) := rfl
  obtain ⟨id, written⟩ := include_written valid created
  have finishes : Later (Disk.Spares ⟨"a.h"⟩ id) (start.perform early.command).2 b :=
    .single (.call .finish)
  have through : Later (Disk.Spares ⟨"a.h"⟩ id) start b := finishes.head (.call early.command)
  have finished : b.writer.finished = true := by rfl
  obtain ⟨⟨i, cpp, first⟩, -⟩ := written 0 [] start .refl
  obtain rfl : i = .withOrder .ordinal := Dialect.cpp.inj cpp.symm
  obtain ⟨⟨_, -, second⟩, -⟩ := written 0 [] b through
  have line : early.line w.directory (early.resolved (.withOrder .ordinal) start.disk.working) =
      "#include \"x.h\"" := by decide
  have inTime := ((first early).2 b finishes).2.1 rfl finished
  rw [line] at inTime
  exact ⟨⟨valid, created⟩, id, (first early).1, (second late).1, inTime,
    ((second late).2 _ .refl).2.2 finished⟩

end Script.Bench

end Emitter
