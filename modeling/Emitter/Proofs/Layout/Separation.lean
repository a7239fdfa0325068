import Emitter.Proofs.Layout.Outline
import Emitter.Proofs.Layout.Structured
import Emitter.Proofs.Text.Pieces
import Emitter.Proofs.Writer.Run
import Mathlib.Data.List.Chain

/-! Empty lines. Where acts write no empty lines of their own, the lines of a body are those that
the acts write, one after the other, and an empty line stands behind each where separation was asked
for before the next and not suppressed until then (`separated`). -/

namespace Emitter.Script

/-! ## Outlines in stretches -/

/-- Separation is asked for, and was not suppressed before. -/
def Spacing.isAsked (calls : List Spacing) : Bool :=
  (calls.takeWhile (· != .tight)).contains .separate

/-- Lines that are written together, and the calls up to the next ones. -/
structure Stretch where
  opens : Bool
  lines : List (List Char)
  calls : List Spacing
deriving DecidableEq, Repr

/-- The lines, and an empty one if it was asked for. -/
def Stretch.written (s : Stretch) : List (List Char) :=
  s.lines ++ if Spacing.isAsked s.calls then [[]] else []

/-- The calls before the first lines, and the stretches. -/
def stretches : List Cue → List Spacing × List Stretch
  | [] => ([], [])
  | .spacing call :: rest => (call :: (stretches rest).1, (stretches rest).2)
  | .lines opens lines :: rest => ([], ⟨opens, lines, (stretches rest).1⟩ :: (stretches rest).2)

/-- The first call decides, as lines make a separation due and any call ends that. -/
theorem linesOf_eq (tight : Bool) (cues : List Cue) : linesOf tight cues =
    (if Spacing.isAsked (stretches cues).1 && !tight then [[]] else []) ++
      (stretches cues).2.flatMap Stretch.written := by
  induction cues generalizing tight with
  | nil => rfl
  | cons cue rest ih =>
    rcases cue with ⟨opens, lines⟩ | call
    · rw [linesOf, ih, stretches]
      simp [Stretch.written, Spacing.isAsked]
    · cases call with
      | separate =>
        rw [linesOf, ih, stretches]
        cases tight <;> simp [Spacing.isAsked]
      | tight =>
        rw [linesOf, ih, stretches]
        simp [Spacing.isAsked]

/-! ## Acts without empty lines -/

/-- A text without an empty line in it. -/
def isSolidText (text : String) : Bool := !(Text.split '\n' text.toList).contains []

def isSolidCall : Command → Bool
  | .writeLine text | .leftAdjusted text | .indented text => isSolidText text
  | .blankLine => false
  | _ => true

def isSolidAround : Around → Bool
  | .indentLines start closing | .leftLines start closing =>
    isSolidText start && isSolidText closing
  | .disabled true message => isSolidText (Writer.disabledStart message)
  | _ => true

mutual

def isSolid : Act → Bool
  | .call _ command => isSolidCall command
  | .within _ around body => isSolidAround around && allSolid body

def allSolid : List Act → Bool
  | [] => true
  | act :: rest => isSolid act && allSolid rest

end

theorem isSolidText_of_line {text : String} (nonempty : text ≠ "") (line : '\n' ∉ text.toList) :
    isSolidText text = true := by
  have some : text.toList ≠ [] := fun nothing => nonempty (String.toList_inj.1 nothing)
  simp [isSolidText, Text.split_eq_singleton line, some]

theorem isSolidAround_disabled {message : Option String}
    (line : ∀ text ∈ message, '\n' ∉ text.toList) :
    isSolidAround (.disabled true message) = true := by
  cases message with
  | none => decide
  | some text =>
    refine isSolidText_of_line ?_ ?_
    · simp [Writer.disabledStart, ← String.toList_inj]
    · simpa [Writer.disabledStart] using line text rfl

/-- Lines of which none is empty and none has a line break. -/
structure AreSolid (lines : List (List Char)) : Prop where
  nonempty : lines ≠ []
  solid : ∀ line ∈ lines, line ≠ [] ∧ '\n' ∉ line

def Cue.IsSolid : Cue → Prop
  | .lines _ written => AreSolid written
  | .spacing _ => True

/-- What opens is followed by a call that suppresses the separation. -/
def Guarded : List Cue → Prop
  | [] => True
  | .lines opens _ :: rest =>
    (opens = true → rest.head? = some (.spacing .tight)) ∧ Guarded rest
  | .spacing _ :: rest => Guarded rest

structure Neat (cues : List Cue) : Prop where
  solid : ∀ cue ∈ cues, cue.IsSolid
  guarded : Guarded cues

end Script

/-- The margin of a layout has no line break. -/
def Layout.IsPlain (l : Layout) : Prop := ∀ text ∈ l.linePrefix, '\n' ∉ text.toList

theorem Layout.IsPlain.newline_not_mem {l : Layout} (h : l.IsPlain) : '\n' ∉ l.margin.toList := by
  obtain ⟨unit, depth, linePrefix⟩ := l
  rw [margin, String.toList_append, List.mem_append, not_or]
  constructor
  · have char : unit.char ≠ '\n' := by cases unit <;> simp [Indent.char]
    simp [Indent.levels, List.mem_replicate, char.symm]
  · cases linePrefix with
    | none => exact List.not_mem_nil
    | some text => exact h text rfl

theorem Layout.line_ne_nil (l : Layout) {piece : List Char} (h : piece ≠ []) :
    l.line piece ≠ [] := by
  have whole : piece.takeWhile (· == '\r') ++ piece.dropWhile (· == '\r') = piece :=
    List.takeWhile_append_dropWhile
  intro nothing
  rw [line, List.append_eq_nil_iff] at nothing
  obtain ⟨returns, rest⟩ := nothing
  rw [returns, List.nil_append] at whole
  rw [whole, if_neg h, List.append_eq_nil_iff] at rest
  exact h rest.2

theorem Layout.newline_not_mem_line {l : Layout} (plain : l.IsPlain) {piece : List Char}
    (h : '\n' ∉ piece) : '\n' ∉ l.line piece := by
  rw [line, List.mem_append, not_or]
  constructor
  · exact fun mem => h ((List.takeWhile_prefix _).mem mem)
  · split
    · exact List.not_mem_nil
    · rw [List.mem_append, not_or]
      exact ⟨plain.newline_not_mem, fun mem => h ((List.dropWhile_suffix _).mem mem)⟩

theorem Layout.IsPlain.areSolid {l : Layout} (plain : l.IsPlain) {text : String}
    (solid : Script.isSolidText text = true) : Script.AreSolid (l.lines text) := by
  refine ⟨fun nothing => Text.split_ne_nil '\n' text.toList (List.map_eq_nil_iff.1 nothing), ?_⟩
  intro line mem
  obtain ⟨piece, known, rfl⟩ := List.mem_map.1 mem
  have nonempty : piece ≠ [] := by
    rintro rfl
    simp [Script.isSolidText, known] at solid
  exact ⟨l.line_ne_nil nonempty, newline_not_mem_line plain (Text.not_mem_of_mem_split known)⟩

namespace Script

/-! ## Outlines of such acts -/

theorem Guarded.append {a b : List Cue} (ha : Guarded a) (hb : Guarded b) : Guarded (a ++ b) := by
  induction a with
  | nil => exact hb
  | cons cue rest ih =>
    cases cue with
    | spacing call => exact ih ha
    | lines opens written =>
      refine ⟨fun opening => ?_, ih ha.2⟩
      exact (List.head?_append (l := rest)).trans (by rw [ha.1 opening, Option.some_or])

theorem Neat.append {a b : List Cue} (ha : Neat a) (hb : Neat b) : Neat (a ++ b) :=
  ⟨fun cue mem => (List.mem_append.1 mem).elim (ha.solid cue) (hb.solid cue),
    ha.guarded.append hb.guarded⟩

theorem Neat.nil : Neat [] := ⟨fun _ mem => absurd mem List.not_mem_nil, trivial⟩

theorem Neat.spacing (call : Spacing) : Neat [.spacing call] :=
  ⟨fun _ mem => List.mem_singleton.1 mem ▸ trivial, trivial⟩

theorem Neat.lines {written : List (List Char)} (solid : AreSolid written) :
    Neat [.lines false written] :=
  ⟨fun _ mem => List.mem_singleton.1 mem ▸ solid, nofun, trivial⟩

/-- What opens, and suppresses the separation at once. -/
theorem Neat.opening {written : List (List Char)} (solid : AreSolid written) :
    Neat [.lines true written, .spacing .tight] := by
  refine ⟨fun cue mem => ?_, fun _ => rfl, trivial⟩
  rcases List.mem_pair.1 mem with rfl | rfl
  · exact solid
  · trivial

theorem Edges.neat_around {e : Edges} {o : Outline} (before : Neat e.before) (inner : Neat o.cues)
    (closing : ∀ written ∈ e.closing, AreSolid written) : Neat (e.around o).cues := by
  refine (before.append inner).append ?_
  cases closed : e.closing with
  | none => exact Neat.nil
  | some written => exact Neat.lines (closing written closed)

theorem neat_edges {l : Layout} (plain : l.IsPlain) {around : Around} {e : Edges}
    (solid : isSolidAround around = true) (opens : edges l around = .ok e) :
    Neat e.before ∧ e.inner.IsPlain ∧ ∀ written ∈ e.closing, AreSolid written := by
  have left : (l.moved 0).IsPlain := plain
  have unclosed : ∀ written ∈ (none : Option (List (List Char))), AreSolid written :=
    fun _ known => absurd known (Option.not_mem_none _)
  cases around with
  | indent =>
    cases opens
    exact ⟨Neat.nil, plain, unclosed⟩
  | indentLines start closing =>
    cases opens
    rw [isSolidAround, Bool.and_eq_true] at solid
    exact ⟨Neat.lines (plain.areSolid solid.1), plain, fun _ known =>
      Option.some.inj known ▸ plain.areSolid solid.2⟩
  | leftLines start closing =>
    cases opens
    rw [isSolidAround, Bool.and_eq_true] at solid
    exact ⟨Neat.lines (left.areSolid solid.1), plain, fun _ known =>
      Option.some.inj known ▸ left.areSolid solid.2⟩
  | linePrefix text =>
    by_cases broken : '\r' ∈ text.toList ∨ '\n' ∈ text.toList
    · rw [edges, if_pos broken] at opens
      cases opens
    · rw [edges, if_neg broken] at opens
      cases opens
      exact ⟨Neat.nil, fun _ known => Option.some.inj known ▸ (not_or.1 broken).2, unclosed⟩
  | block =>
    cases opens
    exact ⟨Neat.opening (plain.areSolid (by decide)), plain, fun _ known =>
      Option.some.inj known ▸ plain.areSolid (by decide)⟩
  | disabled isDisabled message =>
    cases isDisabled with
    | false =>
      cases opens
      exact ⟨Neat.nil, plain, unclosed⟩
    | true =>
      cases opens
      exact ⟨(Neat.spacing .separate).append (Neat.opening (left.areSolid solid)), plain,
        fun _ known => Option.some.inj known ▸ left.areSolid (by decide)⟩

theorem neat_outlineCall {l : Layout} (plain : l.IsPlain) (unnamed : String) {command : Command}
    (solid : isSolidCall command = true) : Neat (outlineCall unnamed l command).cues := by
  cases command
  case writeLine text => exact Neat.lines (plain.areSolid solid)
  case leftAdjusted text =>
    have left : (l.moved 0).IsPlain := plain
    exact Neat.lines (left.areSolid solid)
  case indented text =>
    have deeper : (l.moved (l.depth + 1)).IsPlain := plain
    exact Neat.lines (deeper.areSolid solid)
  case blankLine => exact absurd solid Bool.false_ne_true
  case separate => exact Neat.spacing .separate
  case noSeparation => exact Neat.spacing .tight
  all_goals exact Neat.nil

mutual

theorem neat_outline {l : Layout} (plain : l.IsPlain) (unnamed : String) {act : Act}
    (solid : isSolid act = true) : Neat (outline unnamed l act).cues := by
  cases act with
  | call propagates command => exact neat_outlineCall plain unnamed solid
  | within propagates around body =>
    rw [isSolid, Bool.and_eq_true] at solid
    rw [outline]
    cases opens : edges l around with
    | error e => exact Neat.nil
    | ok e =>
      obtain ⟨before, inner, closing⟩ := neat_edges plain solid.1 opens
      exact e.neat_around before (neat_outlineAll inner unnamed solid.2) closing

theorem neat_outlineAll {l : Layout} (plain : l.IsPlain) (unnamed : String) {acts : List Act}
    (solid : allSolid acts = true) : Neat (outlineAll unnamed l acts).cues := by
  cases acts with
  | nil => exact Neat.nil
  | cons act rest =>
    rw [allSolid, Bool.and_eq_true] at solid
    have first := neat_outline plain unnamed solid.1
    rw [outlineAll]
    cases stopped : (outline unnamed l act).error with
    | some e => exact first
    | none => exact first.append (neat_outlineAll plain unnamed solid.2)

end

/-- A stretch of lines that are not empty, and if it opens something, of no empty one after. -/
structure Stretch.IsNeat (s : Stretch) : Prop where
  solid : AreSolid s.lines
  guarded : s.opens = true → Spacing.isAsked s.calls = false

theorem Neat.stretches {cues : List Cue} (neat : Neat cues) :
    ∀ s ∈ (stretches cues).2, s.IsNeat := by
  obtain ⟨solid, guarded⟩ := neat
  induction cues with
  | nil => exact nofun
  | cons cue rest ih =>
    have later := ih fun cue mem => solid cue (.tail _ mem)
    cases cue with
    | spacing call => exact later guarded
    | lines opens written =>
      intro s mem
      rcases List.mem_cons.1 mem with rfl | mem
      · refine ⟨solid _ List.mem_cons_self, fun opening => ?_⟩
        obtain ⟨more, rfl⟩ := List.head?_eq_some_iff.1 (guarded.1 opening)
        rfl
      · exact later guarded.2 s mem

/-! ## Lines -/

section Lines

variable {program : List Stretch} (neat : ∀ s ∈ program, s.IsNeat)
include neat

theorem head_written : (program.flatMap Stretch.written).head? ≠ some [] := by
  cases program with
  | nil => exact nofun
  | cons s rest =>
    obtain ⟨nonempty, solid⟩ := (neat s List.mem_cons_self).solid
    obtain ⟨first, more, lines⟩ := List.exists_cons_of_ne_nil nonempty
    have kept : first ≠ [] := (solid first (lines ▸ List.mem_cons_self)).1
    rw [List.flatMap_cons, Stretch.written, lines]
    exact fun blank => kept (Option.some.inj blank)

theorem newline_not_mem_written :
    ∀ line ∈ program.flatMap Stretch.written, '\n' ∉ line := by
  intro line mem
  obtain ⟨s, known, mem⟩ := List.mem_flatMap.1 mem
  rcases List.mem_append.1 mem with written | blank
  · exact ((neat s known).solid.solid line written).2
  · split at blank
    · rw [List.mem_singleton.1 blank]
      exact List.not_mem_nil
    · cases blank

omit neat in
theorem Stretch.IsNeat.chain {s : Stretch} (h : s.IsNeat) :
    s.written.IsChain (fun a b => a ≠ [] ∨ b ≠ []) := by
  have lines : s.lines.IsChain (fun a b => a ≠ [] ∨ b ≠ []) :=
    List.Pairwise.isChain (List.pairwise_of_forall_mem_list fun a mem _ _ =>
      .inl (h.solid.solid a mem).1)
  refine lines.append ?_ fun a last _ _ =>
    .inl (h.solid.solid a (List.mem_of_mem_getLast? last)).1
  split
  · exact List.isChain_singleton _
  · exact List.isChain_nil

/-- The line before a stretch may be empty, its first line is not. -/
theorem chain_written :
    (program.flatMap Stretch.written).IsChain (fun a b => a ≠ [] ∨ b ≠ []) := by
  induction program with
  | nil => exact List.isChain_nil
  | cons s rest ih =>
    have later : ∀ s ∈ rest, s.IsNeat := fun s mem => neat s (.tail _ mem)
    rw [List.flatMap_cons]
    refine (neat s List.mem_cons_self).chain.append (ih later) fun _ _ b first => .inr ?_
    rintro rfl
    exact head_written later first

omit neat in
theorem split_closed {lines : List (List Char)} (h : ∀ line ∈ lines, '\n' ∉ line) :
    Text.split '\n' (closed lines) = lines ++ [[]] := by
  have pieces : lines.flatMap (Text.split '\n') = lines.flatMap fun line => [line] :=
    List.flatMap_congr fun line mem => Text.split_eq_singleton (h line mem)
  rw [closed, Text.split_flatMap, pieces, List.flatMap_singleton']

end Lines

namespace Bench

/-- What acts add to a body that ends in a newline are the lines of their outline. -/
theorem body_runAll {b : Bench} {acts : List Act} (unfinished : b.writer.finished = false)
    (fresh : b.writer.draft.fresh = true)
    (structured : allStructured b.handle.byKind b.writer.dialect acts = true) :
    let o := outlineAll b.handle.unnamed b.writer.draft.layout acts
    (b.runAll acts).2.2.writer.draft.body =
      b.writer.draft.body ++ String.ofList (closed (linesOf b.writer.draft.tight o.cues)) := by
  intro o
  obtain ⟨-, n, mark, after⟩ := runAll_follows b unfinished fresh acts structured
  rw [after, renderAll_eq]
  rfl

/-- On a new writer, acts that write no empty lines leave a body in which empty lines only separate:
none comes first, no two follow each other, and after lines there is one exactly if separation was
asked for before the next lines and not suppressed before. What opens a block or a disabled region
has none after it. -/
theorem separated {path : Path} {settings : Settings} {dialect : Dialect} {d : Disk} {b : Bench}
    {acts : List Act} (created : (Writer.create path settings dialect d).1 = .ok b.writer)
    (structured : allStructured b.handle.byKind b.writer.dialect acts = true)
    (solid : allSolid acts = true) :
    let program := (stretches (outlineAll b.handle.unnamed b.writer.draft.layout acts).cues).2
    let lines := program.flatMap Stretch.written
    Text.split '\n' (b.runAll acts).2.2.writer.draft.body.toList = lines ++ [[]] ∧
      lines.head? ≠ some [] ∧ lines.IsChain (fun a b => a ≠ [] ∨ b ≠ []) ∧
      ∀ before s after, program = before ++ s :: after →
        lines = before.flatMap Stretch.written ++ s.lines ++
            (if Spacing.isAsked s.calls then [[]] else []) ++ after.flatMap Stretch.written ∧
          [] ∉ s.lines ∧ (s.opens = true → Spacing.isAsked s.calls = false) ∧
          (after.flatMap Stretch.written).head? ≠ some [] := by
  intro program lines
  obtain ⟨-, draft, unfinished⟩ := Writer.new_of_create created
  have plain : b.writer.draft.layout.IsPlain := by
    rw [draft]
    exact nofun
  have neat : ∀ s ∈ program, s.IsNeat := (neat_outlineAll plain _ solid).stretches
  refine ⟨?_, head_written neat, chain_written neat, ?_⟩
  · have body := body_runAll unfinished (draft ▸ rfl) structured
    have whole : (b.runAll acts).2.2.writer.draft.body.toList = closed lines := by
      rw [body, linesOf_eq, draft]
      simp [lines, program, draft]
    rw [whole, split_closed (newline_not_mem_written neat)]
  · intro before s after parts
    have known : s.IsNeat := neat s (parts ▸ List.mem_append_right _ List.mem_cons_self)
    refine ⟨?_, fun blank => (known.solid.solid [] blank).1 rfl, known.guarded, ?_⟩
    · simp only [lines, parts, List.flatMap_append, List.flatMap_cons, Stretch.written,
        List.append_assoc]
    · exact head_written fun s mem =>
        neat s (parts ▸ List.mem_append_right _ (List.mem_cons_of_mem _ mem))

/-- Separation that is asked for first, twice, at the beginning of a block or of a disabled region,
and after it was suppressed. -/
theorem separated_scopes :
    let w : Writer := {
      dialect := .cpp {}, output := ⟨⟨"a.h"⟩, some 0⟩, directory := ⟨"/"⟩, settings := {}
      draft := { unit := .spaces 4 }, finished := false }
    let b : Bench := ⟨⟨w, false, 0⟩, ⟨⟨"/"⟩, [(["a.h"], .file 0)], [[]], [0]⟩, []⟩
    let acts : List Act := [
      .call true .separate, .call true (.writeLine "a"), .call true .separate, .call true .separate,
      .within true .block [
        .call true .separate, .call true (.writeLine "b"),
        .within true (.disabled true (some "c")) [
          .call true .separate, .within true (.linePrefix "> ") [.call true (.writeLine "d")],
          .call true .separate],
        .within false .indent [.call true .noSeparation, .call true .separate],
        .within true (.indentLines "e" "f") [.call true .separate]]]
    ((Writer.create ⟨"a.h"⟩ {} (.cpp {}) (.empty ⟨"/"⟩)).1 = .ok b.writer ∧
      allStructured b.handle.byKind b.writer.dialect acts = true ∧ allSolid acts = true) ∧
      Text.split '\n' (b.runAll acts).2.2.writer.draft.body.toList =
        ["a", "", "\x7b", "    b", "", "#if 0 // c", "    > d", "", "#endif", "    e", "", "    f",
          "\x7d", ""].map String.toList := by
  intro w b acts
  have created : (Writer.create ⟨"a.h"⟩ {} (.cpp {}) (.empty ⟨"/"⟩)).1 = .ok b.writer := rfl
  have structured : allStructured b.handle.byKind b.writer.dialect acts = true := by decide
  have solid : allSolid acts = true := by decide
  obtain ⟨body, -⟩ := separated created structured solid
  exact ⟨⟨created, structured, solid⟩, body.trans (by decide)⟩

end Bench

end Script

end Emitter
