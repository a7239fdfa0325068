import Emitter.Proofs.Include.Committed
import Emitter.Proofs.Path.Relative

/-! Include lines name the files that were included. All that is included is absolute and has no
backslash, however it was asked for (`Slashed.edits`), so the text of a line, read against the
directory of the header file, is the included file again, and no two files share a line. -/

namespace Emitter

open Emitter.Path

theorem IncludeSet.of_mem_insert {set : IncludeSet} {p q : Path} (mem : q ∈ (set.insert p).paths) :
    q ∈ set.paths ∨ q = p := by
  unfold insert at mem
  split at mem
  · exact .inl mem
  · exact (List.mem_append.1 mem).imp_right List.mem_singleton.1

namespace Includes

/-- The base and the files that are included are absolute and have no backslash. -/
structure Slashed (i : Includes) : Prop where
  base : ∀ base, i.base = some base → base.Slashed
  quoted : ∀ x ∈ i.quoted.paths, x.Slashed

section

variable {i i' : Includes} (slashed : i.Slashed) {working : Path}
  (absolute : working.isAbsolute = true) (slashes : '\\' ∉ working.text.toList)
include slashed absolute slashes

theorem Slashed.resolve (path : String) : (i.resolve working path).Slashed := by
  rw [Includes.resolve]
  cases base : i.base with
  | none => exact slashed_absolutize absolute slashes path
  | some base' =>
    have known := slashed.base base' base
    exact slashed_absolutize known.1.isAbsolute known.2 path

theorem Slashed.edits (edits : i.Edits working i') : i'.Slashed := by
  cases edits with
  | nothing => exact slashed
  | add call =>
    cases call with
    | quoted path =>
      refine ⟨slashed.base, fun x mem => ?_⟩
      rcases IncludeSet.of_mem_insert mem with old | rfl
      · exact slashed.quoted x old
      · exact slashed.resolve absolute slashes path
    | system path => exact ⟨slashed.base, slashed.quoted⟩
  | setBase path =>
    refine ⟨fun base set => ?_, slashed.quoted⟩
    obtain rfl := Option.some.inj set
    exact slashed_absolutize absolute slashes path
  | setOrder order => exact ⟨slashed.base, slashed.quoted⟩

end

/-- The lines and the included files belong together one by one, a line to the file that it leads to
from the directory. -/
structure NamesFiles (i : Includes) (directory : Path) : Prop where
  named : ∀ t ∈ i.quoted.render directory, absolutize directory ⟨t⟩ ∈ i.quoted.paths
  line : ∀ x ∈ i.quoted.paths, ∃! t, t ∈ i.quoted.render directory ∧ absolutize directory ⟨t⟩ = x

theorem Slashed.namesFiles {i : Includes} (slashed : i.Slashed) {directory : Path}
    (absolute : directory.isAbsolute = true) : i.NamesFiles directory := by
  have leads {x : Path} (mem : x ∈ i.quoted.paths) :
      absolutize directory ⟨IncludeSet.line directory x⟩ = x :=
    IncludeSet.absolutize_line absolute (slashed.quoted x mem)
  constructor
  · intro t rendered
    obtain ⟨x, mem, rfl⟩ := IncludeSet.mem_render.1 rendered
    rwa [leads mem]
  · intro x mem
    refine ⟨_, ⟨IncludeSet.mem_render.2 ⟨x, mem, rfl⟩, leads mem⟩, ?_⟩
    rintro _ ⟨rendered, same⟩
    obtain ⟨y, known, rfl⟩ := IncludeSet.mem_render.1 rendered
    rw [leads known] at same
    rw [same]

end Includes

namespace Script.Bench

open Includes Text

/-- A header file for a directory, opened with its own methods; all that is included is absolute and
has no backslash. -/
structure Located (directory working : Path) (i : Includes) (b : Bench) : Prop where
  known : b.handle.byKind = false
  directory : b.writer.directory = directory
  working : b.disk.working = working
  cpp : b.writer.dialect = .cpp i
  slashed : i.Slashed

section

variable {directory working : Path} (absolute : working.isAbsolute = true)
  (slashes : '\\' ∉ working.text.toList) {others : Disk → Disk → Prop}
  (stays : ∀ d d', others d d' → d'.working = d.working) {i : Includes} {b b' : Bench}
include absolute slashes stays

theorem Located.next (located : Located directory working i b) (next : Next others b b') :
    ∃ i', Located directory working i' b' := by
  rcases edited_next located.cpp next with rfl | edited | ⟨d, changed, rfl⟩
  · obtain ⟨⟨state, dialect⟩, same, place⟩ := b.writer.finish_frame b.disk none
    rw [located.cpp] at dialect
    exact ⟨i, located.known, same.trans located.directory, place.trans located.working, dialect,
      located.slashed⟩
  · obtain ⟨draft, i', edits, writer⟩ := edited.writer
    rw [located.working] at edits
    refine ⟨i', edited.byKind.trans located.known, ?_, ?_, ?_,
      located.slashed.edits absolute slashes edits⟩
    · rw [writer]
      exact located.directory
    · rw [edited.disk]
      exact located.working
    · rw [writer]
  · exact ⟨i, located.known, located.directory, (stays _ _ changed).trans located.working,
      located.cpp, located.slashed⟩

theorem Located.later (located : Located directory working i b) (later : Later others b b') :
    ∃ i', Located directory working i' b' := by
  induction later with
  | refl => exact ⟨i, located⟩
  | tail _ next ih =>
    obtain ⟨i', located'⟩ := ih
    exact located'.next absolute slashes stays next

end

theorem Located.mem_addQuoted {directory working : Path} {i : Includes} {b : Bench}
    (located : Located directory working i b) (path : String) :
    i.resolve working path ∈ (i.addQuoted working path).quoted.paths := by
  have normalized : i.quoted.IsNormalized := fun x mem =>
    ⟨x, (located.slashed.quoted x mem).normalize_eq.symm⟩
  exact (IncludeSet.mem_insert normalized (isNormalized_absolutize _ _) _).2 (.inr rfl)

/-- Between absolute paths, the relative one is relative and leads to the target, so it is that of
no other place. Whatever is done with a header file before, a path that is included has its line,
which read against the directory of the file leads where the path leads from the include base; and
no two of the included files ever share a line. -/
theorem include_names_file :
    (∀ d x : Path, d.isAbsolute = true → x.isAbsolute = true →
      (relative d x).isAbsolute = false ∧ absolutize d (relative d x) = x.normalize ∧
      ∀ y : Path, y.isAbsolute = true → relative d x = relative d y → x.normalize = y.normalize) ∧
    ∀ (others : Disk → Disk → Prop) (start b : Bench) (order : IncludeOrder),
      start.handle.byKind = false → start.writer.dialect = .cpp (.withOrder order) →
      start.writer.directory.isAbsolute = true → start.disk.working.isAbsolute = true →
      '\\' ∉ start.disk.working.text.toList →
      (∀ d d', others d d' → d'.working = d.working) → Later others start b →
      ∃ i, b.writer.dialect = .cpp i ∧ i.NamesFiles start.writer.directory ∧
        ∀ path : String, ∃ t,
          (b.perform (.addQuoted path)).1 = .done ∧
          (b.perform (.addQuoted path)).2.writer.dialect = .cpp (i.addQuoted b.disk.working path) ∧
          t ∈ (i.addQuoted b.disk.working path).quoted.render start.writer.directory ∧
          HasLine (b.perform (.addQuoted path)).2.writer.render ("#include \"" ++ t ++ "\"") ∧
          absolutize start.writer.directory ⟨t⟩ =
            absolutize (i.base.getD b.disk.working) (.ofPortable path) := by
  refine ⟨fun d x hd hx => ⟨isAbsolute_relative hd hx, absolutize_relative hd hx,
    fun y hy => normalize_eq_of_relative hd hx hy⟩, ?_⟩
  intro others start b order known cpp absolute working slashes stays later
  have begun : Located start.writer.directory start.disk.working (.withOrder order) start :=
    ⟨known, rfl, rfl, cpp, ⟨nofun, nofun⟩⟩
  obtain ⟨i, located⟩ := begun.later working slashes stays later
  refine ⟨i, located.cpp, located.slashed.namesFiles absolute, fun path => ?_⟩
  have place := located.working
  have mem := located.mem_addQuoted path
  have included : b.perform (.addQuoted path) =
      (.done, b.withDialect (.cpp (i.addQuoted b.disk.working path))) :=
    perform_include located.known located.cpp (.quoted path)
  rw [included, place]
  refine ⟨IncludeSet.line start.writer.directory (i.resolve start.disk.working path), rfl, rfl,
    IncludeSet.mem_render.2 ⟨_, mem, rfl⟩, ?_, ?_⟩
  · have line := @Writer.hasLine_render
      (b.withDialect (.cpp (i.addQuoted start.disk.working path))).writer _ rfl (.quoted path) _ mem
    have directory : (b.withDialect (.cpp (i.addQuoted start.disk.working path))).writer.directory =
        start.writer.directory := located.directory
    rwa [directory] at line
  · exact IncludeSet.absolutize_line absolute (located.slashed.resolve working slashes path)

/-- A base and an include are given with backslashes, and steps up in both. -/
theorem include_names_file_upward :
    let w : Writer := {
      dialect := .cpp (.withOrder .ordinal), output := ⟨⟨"gen/a.h"⟩, some 0⟩
      directory := ⟨"/src//gen"⟩, settings := {}, draft := { unit := .spaces 4 }
      finished := false }
    let d : Disk := ⟨⟨"/src"⟩, [(["src", "gen", "a.h"], .file 0)], [[]], [0]⟩
    let start : Bench := ⟨⟨w, false, 0⟩, d, []⟩
    let b := (start.perform (.setIncludeBase "..\\inc")).2
    let i := (Includes.withOrder .ordinal).setBase ⟨"/src"⟩ "..\\inc"
    (relative ⟨"/a/./b"⟩ ⟨"/a/c/../../d"⟩ = relative ⟨"/a/./b"⟩ ⟨"/d/"⟩ ∧
      absolutize ⟨"/a/./b"⟩ (relative ⟨"/a/./b"⟩ ⟨"/a/c/../../d"⟩) = ⟨"/d"⟩ ∧
      (⟨"/a/c/../../d"⟩ : Path).normalize = (⟨"/d/"⟩ : Path).normalize) ∧
    start.writer.directory.isAbsolute = true ∧ start.disk.working.isAbsolute = true ∧
      '\\' ∉ start.disk.working.text.toList ∧ i.NamesFiles ⟨"/src//gen"⟩ ∧
      ∃ t, HasLine (b.perform (.addQuoted "sub\\..\\x.h")).2.writer.render
          ("#include \"" ++ t ++ "\"") ∧
        absolutize ⟨"/src//gen"⟩ ⟨t⟩ = ⟨"/inc/x.h"⟩ := by
  intro w d start b i
  have absolute : start.writer.directory.isAbsolute = true := by decide
  have working : start.disk.working.isAbsolute = true := by decide
  have slashes : '\\' ∉ start.disk.working.text.toList := by decide
  have through : Later (fun _ _ => False) start b := .single (.call _)
  obtain ⟨i', cpp, names, includes⟩ := include_names_file.2 (fun _ _ => False) start b .ordinal
    rfl rfl absolute working slashes nofun through
  obtain rfl : i' = i := Dialect.cpp.inj cpp.symm
  obtain ⟨t, -, -, -, line, leads⟩ := includes "sub\\..\\x.h"
  have file : absolutize (i.base.getD b.disk.working) (.ofPortable "sub\\..\\x.h") =
      ⟨"/inc/x.h"⟩ := by decide
  rw [file] at leads
  have same : relative ⟨"/a/./b"⟩ ⟨"/a/c/../../d"⟩ = relative ⟨"/a/./b"⟩ ⟨"/d/"⟩ := by decide
  obtain ⟨-, back, only⟩ := include_names_file.1 ⟨"/a/./b"⟩ ⟨"/a/c/../../d"⟩ (by decide) (by decide)
  have target : (⟨"/a/c/../../d"⟩ : Path).normalize = ⟨"/d"⟩ := by decide
  exact ⟨⟨same, back.trans target, only ⟨"/d/"⟩ (by decide) same⟩, absolute, working, slashes,
    names, t, line, leads⟩

end Script.Bench

end Emitter
