import Emitter.Proofs.Include.Preamble
import Emitter.Proofs.Script.Later
import Emitter.Proofs.Writer.Lifecycle

/-! What can happen to the writer of a header file. A call changes the text, or the includes in one
of four ways, or finishes the file; the rest of what a script does touches the text alone, and what
others do touches the disk alone (`edited_next`). -/

namespace Emitter

/-- What one call does to the includes of a file. -/
inductive Includes.Edits (working : Path) (i : Includes) : Includes → Prop
  | nothing : Edits working i i
  | add (call : Call) : Edits working i (call.add working i)
  | setBase (path : String) : Edits working i (i.setBase working path)
  | setOrder (order : IncludeOrder) : Edits working i (i.setOrder order)

namespace Script.Bench

open Includes

/-- What a call other than finishing does to the writer of a header file. -/
structure Edited (b b' : Bench) (i : Includes) : Prop where
  writer : ∃ draft i', i.Edits b.disk.working i' ∧
    b'.writer = { b.writer with draft, dialect := .cpp i' }
  disk : b'.disk = b.disk
  byKind : b'.handle.byKind = b.handle.byKind

variable {b : Bench} {i : Includes} (cpp : b.writer.dialect = .cpp i)
include cpp

theorem edited_draft {b' : Bench} {draft : Draft} (writer : b'.writer = { b.writer with draft })
    (disk : b'.disk = b.disk) (byKind : b'.handle.byKind = b.handle.byKind) : Edited b b' i := by
  refine ⟨⟨draft, i, .nothing, ?_⟩, disk, byKind⟩
  rw [writer, ← cpp]

theorem edited_refl : Edited b b i := edited_draft cpp rfl rfl rfl

theorem edited_edit (edit : Writer.Edit) : Edited b (b.apply (b.writer.edited edit)).2 i := by
  cases edited : b.writer.edited edit with
  | error e => exact edited_refl cpp
  | ok w =>
    obtain ⟨-, rfl⟩ := Writer.edited_eq_ok edited
    exact edited_draft cpp rfl rfl rfl

theorem edited_open (name : String) (opening : Writer.Opening) :
    Edited b (b.keep name (b.writer.opened opening)).2 i := by
  cases opened : b.writer.opened opening with
  | error e => exact edited_refl cpp
  | ok entered =>
    obtain ⟨token, w⟩ := entered
    obtain ⟨-, frame, draft, -, rfl, -⟩ := Writer.opened_eq_ok opened
    exact edited_draft cpp rfl rfl rfl

theorem edited_close (name : String) : Edited b (b.close name).2 i := by
  unfold Bench.close
  split
  · exact edited_refl cpp
  · next token _ =>
    obtain ⟨draft, closed⟩ := b.writer.close_frame token
    exact edited_draft cpp closed rfl rfl

theorem edited_includes {edit : Includes → Includes} (edits : i.Edits b.disk.working (edit i)) :
    Edited b (b.withIncludes edit).2 i := by
  unfold withIncludes
  rw [cpp]
  exact ⟨⟨b.writer.draft, edit i, edits, rfl⟩, rfl, rfl⟩

theorem edited_performKnown (command : Command) :
    (b.performKnown command).2 = b.finish.2 ∨ Edited b (b.performKnown command).2 i := by
  have nothing := edited_refl cpp
  cases command with
  | finish => exact .inl rfl
  | write text => exact .inr (edited_edit cpp (.write text))
  | writeChar c => exact .inr (edited_edit cpp (.writeChar c))
  | writeLine text => exact .inr (edited_edit cpp (.writeLine text))
  | blankLine => exact .inr (edited_edit cpp .blankLine)
  | writeEquation text number => exact .inr (edited_edit cpp (.write _))
  | writeLiteral => exact .inr (edited_edit cpp (.write _))
  | leftAdjusted text => exact .inr (edited_edit cpp (.leftAdjusted text))
  | indented text => exact .inr (edited_edit cpp (.indented text))
  | noSeparation => exact .inr (edited_draft cpp rfl rfl rfl)
  | separate => exact .inr (edited_edit cpp .separate)
  | openIndent name start closing => exact .inr (edited_open cpp name (.indent start closing))
  | openLeft name start closing => exact .inr (edited_open cpp name (.left start closing))
  | openPrefix name text => exact .inr (edited_open cpp name (.linePrefix text))
  | openBlock name =>
    right
    rw [performKnown]
    split
    · exact edited_open cpp name .block
    · exact nothing
  | openDisabled name message =>
    right
    rw [performKnown]
    split
    · exact edited_open cpp name (.disabled message)
    · exact nothing
  | close name => exact .inr (edited_close cpp name)
  | setPreamble line =>
    right
    rw [performKnown, setPreamble, cpp]
    exact nothing
  | addQuoted path => exact .inr (edited_includes cpp (.add (.quoted path)))
  | addSystem path => exact .inr (edited_includes cpp (.add (.system path)))
  | setIncludeBase path => exact .inr (edited_includes cpp (.setBase path))
  | setIncludeOrder order => exact .inr (edited_includes cpp (.setOrder order))
  | includes =>
    right
    rw [performKnown]
    split <;> exact nothing
  | render | info | fail => exact .inr nothing

theorem edited_perform (command : Command) :
    (b.perform command).2 = b.finish.2 ∨ Edited b (b.perform command).2 i := by
  unfold Bench.perform
  split
  · cases command with
    | finish => exact .inl rfl
    | write text => exact .inr (edited_edit cpp (.write text))
    | writeLine text => exact .inr (edited_edit cpp (.writeLine text))
    | blankLine => exact .inr (edited_edit cpp .blankLine)
    | separate => exact .inr (edited_edit cpp .separate)
    | _ => exact .inr (edited_refl cpp)
  · exact edited_performKnown cpp command

/-- A step of a script is an edit or finishes the file, or others touch the disk. -/
theorem edited_next {others : Disk → Disk → Prop} {b' : Bench} (next : Next others b b') :
    b' = b.finish.2 ∨ Edited b b' i ∨ ∃ d, others b.disk d ∧ b' = { b with disk := d } := by
  cases next with
  | call command => exact (edited_perform cpp command).imp_right .inl
  | enter opens =>
    obtain ⟨opening, opened⟩ := opened?_eq_some opens
    obtain ⟨-, frame, draft, -, rfl, -⟩ := Writer.opened_eq_ok opened.symm
    exact .inr (.inl (edited_draft cpp rfl rfl rfl))
  | leave token result =>
    obtain ⟨draft, left⟩ := b.writer.leave_frame token result
    exact .inr (.inl (edited_draft cpp left rfl rfl))
  | mark => exact .inr (.inl (edited_draft cpp rfl rfl rfl))
  | wait h => exact .inr (.inr ⟨_, h, rfl⟩)

end Script.Bench

end Emitter
