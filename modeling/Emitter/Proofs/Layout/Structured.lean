import Emitter.Proofs.Layout.Rendering

/-! A tree of acts on whole lines adds its rendering to a writer that stands at the start of a line,
and ends with the rendering's error. Level, prefix and open scopes come out as they went in. The
proof is one induction on the tree; a scope is known by the one frame that leads out of it. -/

namespace Emitter

namespace Draft

/-- The draft just inside a scope. -/
def within (d : Draft) (s : Script.Shell) (frame : Frame) : Draft :=
  { d.after s.before s.tight (d.nextId + 1) with
    level := s.inner.depth, linePrefix := s.inner.linePrefix, scopes := frame :: d.scopes }

/-- The innermost scope has none inside that would be dropped. -/
theorem unwindTo_innermost {d : Draft} {frame : Frame} {outer : List Frame}
    (h : d.scopes = frame :: outer) : d.unwindTo frame.token = d := by
  rw [unwindTo, h, List.any_cons, beq_self_eq_true, Bool.true_or, if_pos rfl, dropInner, if_pos rfl,
    ← h]

end Draft

namespace Writer

/-- A writer with more text, at the start of a line. -/
def after (w : Writer) (text : String) (tight : Bool) (nextId : Nat) : Writer :=
  { w with draft := w.draft.after text tight nextId }

@[simp] theorem after_after (w : Writer) (a b : String) (s t : Bool) (m n : Nat) :
    (w.after a s m).after b t n = w.after (a ++ b) t n := by
  simp [after]

/-- Nothing was added. -/
theorem after_nothing {w : Writer} (fresh : w.draft.fresh = true) :
    w.after "" w.draft.tight w.draft.nextId = w := by
  rw [after, Draft.after_nothing fresh]

theorem edit_eq {w : Writer} (unfinished : w.finished = false) (f : Draft → Draft) :
    w.edit f = .ok { w with draft := f w.draft } := by
  simp [edit, unfinished]

theorem editFresh_eq {w : Writer} (unfinished : w.finished = false)
    (fresh : w.draft.fresh = true) (operation : LineOperation) (f : Draft → Draft) :
    w.editFresh operation f = .ok { w with draft := f w.draft } := by
  simp [editFresh, unfinished, fresh]

section Lines

variable {w : Writer} (unfinished : w.finished = false) (fresh : w.draft.fresh = true)
include unfinished fresh

theorem writeLine_eq (text : String) :
    w.writeLine text = .ok (w.after (w.draft.layout.paragraph text) false w.draft.nextId) := by
  rw [writeLine, edit_eq unfinished, Draft.writeLine_fresh fresh, after]

theorem blankLine_eq : w.blankLine = .ok (w.after "\n" false w.draft.nextId) := by
  rw [blankLine, writeChar, edit_eq unfinished, Draft.push_newline_fresh fresh, after]

theorem writeLeftAdjusted_eq (text : String) : w.writeLeftAdjusted text =
    .ok (w.after ((w.draft.layout.moved 0).paragraph text) false w.draft.nextId) := by
  rw [writeLeftAdjusted, editFresh_eq unfinished fresh, Draft.writeLeftAdjusted,
    Draft.atLevel_writeLine_fresh fresh, after]

theorem writeIndented_eq (text : String) : w.writeIndented text =
    .ok (w.after ((w.draft.layout.moved (w.draft.level + 1)).paragraph text) false
      w.draft.nextId) := by
  rw [writeIndented, editFresh_eq unfinished fresh, Draft.writeIndented,
    Draft.atLevel_writeLine_fresh fresh, after]

theorem separate_eq : w.separate =
    .ok (w.after (if w.draft.tight then "" else "\n") true w.draft.nextId) := by
  rw [separate, edit_eq unfinished, Draft.separate]
  cases tight : w.draft.tight with
  | true =>
    have := after_nothing fresh
    rw [tight] at this
    simp only [if_pos, this]
  | false =>
    simp only [Draft.push_newline_fresh fresh, after, Draft.noSeparation]
    rfl

omit unfinished in
theorem noSeparation_eq : w.noSeparation = w.after "" true w.draft.nextId := by
  simp [noSeparation, Draft.noSeparation, after, Draft.after, ← fresh]

end Lines

/-! ## Scopes from inside -/

/-- A frame that leads out of a shell: it can be closed at the shell's depth and prefix, gives back
those around it, and writes the shell's last line. -/
structure Leads (w : Writer) (s : Script.Shell) (frame : Frame) : Prop where
  inner : (w.draft.within s frame).layout = s.inner
  closable : ∀ text tight n,
    ((w.draft.within s frame).after text tight n).closable frame.token = .ok frame
  leave : ∀ text tight n, ((w.draft.within s frame).after text tight n).leave frame =
    w.draft.after (s.before ++ text) tight n
  closing : ∀ text tight n, (w.after text tight n).writeClosing frame =
    .ok (w.after (text ++ s.closing.getD "") (s.closing.isNone && tight) n)

/-- However the body ended, its scope is closed and its result goes on. -/
theorem Leads.leave_eq {w : Writer} {s : Script.Shell} {frame : Frame} (h : w.Leads s frame)
    (text : String) (tight : Bool) (n : Nat) (result : Except Error Unit) :
    ({ w with draft := (w.draft.within s frame).after text tight n } : Writer).leave frame.token
        result =
      (result, w.after (s.before ++ text ++ s.closing.getD "") (s.closing.isNone && tight) n) := by
  have closed : ({ w with draft := (w.draft.within s frame).after text tight n } : Writer).close
      frame.token = (.ok (), w.after (s.before ++ text ++ s.closing.getD "")
        (s.closing.isNone && tight) n) := by
    have closing := h.closing (s.before ++ text) tight n
    unfold after at closing
    simp only [close, h.closable, h.leave, closing, after]
  have innermost : ((w.draft.within s frame).after text tight n).scopes =
      frame :: w.draft.scopes := rfl
  cases result with
  | ok => simp only [Writer.leave, closed]
  | error e => simp only [Writer.leave, Draft.unwindTo_innermost innermost, closed]

variable {w : Writer}

theorem leads_indent (unfinished : w.finished = false) (before : String) (tight : Bool)
    (closing : Option String) :
    w.Leads ⟨before, w.draft.layout.moved (w.draft.level + 1), tight,
        closing.map w.draft.layout.paragraph⟩
      (.indent w.draft.nextId (w.draft.level + 1) closing) := by
  refine ⟨rfl, fun text tight n => ?_, fun text tight n => ?_, fun text tight n => ?_⟩
  · simp [Draft.closable, Draft.within, Draft.after, Layout.moved]
  · simp [Draft.leave, Draft.within, Draft.after, Layout.moved, Draft.layout, String.append_assoc]
  · cases closing with
    | none => simp [writeClosing]
    | some line =>
      have inside : (w.after text tight n).finished = false := unfinished
      rw [writeClosing, writeLine_eq inside rfl, after_after]
      rfl

theorem leads_left (unfinished : w.finished = false) (before closing : String) (tight : Bool) :
    w.Leads ⟨before, w.draft.layout, tight, some ((w.draft.layout.moved 0).paragraph closing)⟩
      (.leftAdjusted w.draft.nextId w.draft.level closing) := by
  refine ⟨rfl, fun text tight n => ?_, fun text tight n => ?_, fun text tight n => ?_⟩
  · simp [Draft.closable, Draft.within, Draft.after, Draft.layout]
  · simp [Draft.leave, Draft.within, Draft.after, Draft.layout, String.append_assoc]
  · have inside : (w.after text tight n).finished = false := unfinished
    rw [writeClosing, writeLeftAdjusted_eq inside rfl, after_after]
    rfl

theorem leads_linePrefix (linePrefix : String) (tight : Bool) :
    w.Leads { inner := { w.draft.layout with linePrefix := some linePrefix }, tight }
      (.linePrefix w.draft.nextId linePrefix w.draft.linePrefix) := by
  refine ⟨rfl, fun text tight n => ?_, fun text tight n => ?_, fun text tight n => ?_⟩
  · simp [Draft.closable, Draft.within, Draft.after]
  · simp [Draft.leave, Draft.within, Draft.after, Draft.layout]
  · simp [writeClosing]

/-! ## Opening scopes -/

/-- The writer just inside a scope, with the token that leads out of it. -/
def entered (w : Writer) (s : Script.Shell) (frame : Frame) : Token × Writer :=
  (frame.token, { w with draft := w.draft.within s frame })

theorem openIndent_eq (unfinished : w.finished = false) (fresh : w.draft.fresh = true)
    (start closing : Option String) :
    w.openIndent start closing = .ok (w.entered
      ⟨(start.map w.draft.layout.paragraph).getD "", w.draft.layout.moved (w.draft.level + 1),
        start.isNone && w.draft.tight, closing.map w.draft.layout.paragraph⟩
      (.indent w.draft.nextId (w.draft.level + 1) closing)) := by
  rw [openIndent, edit_eq unfinished]
  cases start with
  | none =>
    simp [Except.map, issued, entered, Draft.openIndent, Draft.enter, Draft.within, Draft.after,
      Layout.moved, Draft.layout, Frame.token, ← fresh]
  | some line =>
    simp [Except.map, issued, entered, Draft.openIndent, Draft.writeLine_fresh fresh, Draft.enter,
      Draft.within, Draft.after, Layout.moved, Draft.layout, Frame.token]

theorem openLeft_eq (unfinished : w.finished = false) (fresh : w.draft.fresh = true)
    (start closing : String) :
    w.openLeft start closing = .ok (w.entered
      ⟨(w.draft.layout.moved 0).paragraph start, w.draft.layout, false,
        some ((w.draft.layout.moved 0).paragraph closing)⟩
      (.leftAdjusted w.draft.nextId w.draft.level closing)) := by
  rw [openLeft, editFresh_eq unfinished fresh]
  simp [Except.map, issued, entered, Draft.openLeft, Draft.writeLeftAdjusted,
    Draft.atLevel_writeLine_fresh fresh, Draft.enter, Draft.within, Draft.after, Draft.layout,
    Frame.token]

theorem openPrefix_eq (unfinished : w.finished = false) (fresh : w.draft.fresh = true)
    {linePrefix : String} (plain : linePrefix.toList.any Draft.isBreak = false) :
    w.openPrefix linePrefix = .ok (w.entered
      { inner := { w.draft.layout with linePrefix := some linePrefix }, tight := w.draft.tight }
      (.linePrefix w.draft.nextId linePrefix w.draft.linePrefix)) := by
  rw [openPrefix, unfinished, plain, edit_eq unfinished, if_neg Bool.false_ne_true,
    if_neg Bool.false_ne_true]
  simp [Except.map, issued, entered, Draft.openPrefix, Draft.enter, Draft.within, Draft.after,
    Draft.layout, Frame.token, ← fresh]

theorem openBlock_eq (unfinished : w.finished = false) (fresh : w.draft.fresh = true) :
    w.openBlock = .ok (w.entered
      ⟨w.draft.layout.paragraph "\x7b", w.draft.layout.moved (w.draft.level + 1), true,
        some (w.draft.layout.paragraph "\x7d")⟩
      (.indent w.draft.nextId (w.draft.level + 1) (some "\x7d"))) := by
  rw [openBlock, openIndent_eq unfinished fresh]
  rfl

/-- The separation before a disabled region belongs to what the region puts before its body. -/
theorem openDisabled_eq (unfinished : w.finished = false) (fresh : w.draft.fresh = true)
    (message : Option String) :
    w.openDisabled message = .ok (w.entered
      ⟨(if w.draft.tight then "" else "\n") ++
          (w.draft.layout.moved 0).paragraph (disabledStart message),
        w.draft.layout, true, some ((w.draft.layout.moved 0).paragraph "#endif")⟩
      (.leftAdjusted w.draft.nextId w.draft.level "#endif")) := by
  have inside : (w.after (if w.draft.tight then "" else "\n") true w.draft.nextId).finished =
      false := unfinished
  rw [openDisabled, separate_eq unfinished fresh]
  simp only [bind, Except.bind, openLeft_eq inside rfl, pure, Except.pure]
  simp [entered, noSeparation, Draft.noSeparation, Draft.within, after, Draft.after, Draft.layout,
    Layout.moved, String.append_assoc]

end Writer

namespace Script

/-- What stands for the text of a statement that fails without one. -/
def Handle.unnamed (h : Handle) : String := if h.byKind then "" else "fail"

namespace Bench

/-- A bench whose writer has more text and stands at the start of a line. -/
def after (b : Bench) (text : String) (tight : Bool) (nextId mark : Nat) : Bench :=
  { b with handle := { b.handle with writer := b.writer.after text tight nextId, mark } }

@[simp] theorem after_after (b : Bench) (x y : String) (s t : Bool) (m n j k : Nat) :
    (b.after x s m j).after y t n k = b.after (x ++ y) t n k := by
  simp [after, writer]

theorem after_nothing {b : Bench} (fresh : b.writer.draft.fresh = true) :
    b.after "" b.writer.draft.tight b.writer.draft.nextId b.handle.mark = b := by
  rw [after, Writer.after_nothing fresh]
  rfl

/-- What running acts comes to: a log entry or more aside, the bench has the text that was rendered,
and the error is the rendering's. -/
def Follows (b : Bench) (r : Rendering) (ran : List Entry × Option Error × Bench) : Prop :=
  ran.2.1 = r.error ∧ ∃ n mark, ran.2.2 = b.after r.text r.tight n mark

section Acts

variable {b : Bench} (unfinished : b.writer.finished = false) (fresh : b.writer.draft.fresh = true)
include unfinished fresh

/-- A statement that does not raise gives a writer with the text that is rendered for it. -/
theorem perform_eq {command : Command} (statement : isStatement b.handle.byKind command = true)
    (quiet : isFail command = false) :
    ∃ text tight, renderCall b.handle.unnamed b.writer.draft.layout b.writer.draft.tight command =
        ⟨text, tight, none⟩ ∧
      b.perform command = b.apply (.ok (b.writer.after text tight b.writer.draft.nextId)) := by
  unfold perform
  cases command
  case writeLine text =>
    refine ⟨_, _, rfl, ?_⟩
    split <;> exact congrArg b.apply (Writer.writeLine_eq unfinished fresh text)
  case blankLine =>
    refine ⟨_, _, rfl, ?_⟩
    split <;> exact congrArg b.apply (Writer.blankLine_eq unfinished fresh)
  case separate =>
    refine ⟨_, _, rfl, ?_⟩
    split <;> exact congrArg b.apply (Writer.separate_eq unfinished fresh)
  case leftAdjusted text =>
    refine ⟨_, _, rfl, ?_⟩
    have known : b.handle.byKind = false := by simpa [isStatement] using statement
    rw [known]
    exact congrArg b.apply (Writer.writeLeftAdjusted_eq unfinished fresh text)
  case indented text =>
    refine ⟨_, _, rfl, ?_⟩
    have known : b.handle.byKind = false := by simpa [isStatement] using statement
    rw [known]
    exact congrArg b.apply (Writer.writeIndented_eq unfinished fresh text)
  case noSeparation =>
    refine ⟨_, _, rfl, ?_⟩
    have known : b.handle.byKind = false := by simpa [isStatement] using statement
    rw [known]
    exact congrArg (fun w => b.apply (.ok w)) (Writer.noSeparation_eq fresh)
  case fail text => exact absurd quiet (Bool.false_ne_true ∘ Eq.symm)
  all_goals exact absurd statement Bool.false_ne_true

omit unfinished fresh in
theorem perform_fail (b : Bench) (text : Option String) :
    b.perform (.fail text) =
      (.failed (.unknownWriterKind (text.getD b.handle.unnamed)), b) := by
  unfold perform Handle.unnamed
  split <;> rfl

theorem run_call (propagates : Bool) {command : Command}
    (statement : isStatement b.handle.byKind command = true) :
    b.Follows (renderCall b.handle.unnamed b.writer.draft.layout b.writer.draft.tight command)
      (b.run (.call propagates command)) := by
  cases quiet : isFail command with
  | false =>
    obtain ⟨text, tight, rendered, performed⟩ := perform_eq unfinished fresh statement quiet
    rw [rendered]
    refine ⟨?_, b.writer.draft.nextId, (b.writer.draft.body ++ text).toList.length, ?_⟩
    · simp [run, performed, apply, logged, stops, Reply.error?]
    · rw [run, performed]
      rfl
  | true =>
    obtain ⟨text, rfl⟩ : ∃ text, command = .fail text := by
      cases command
      case fail text => exact ⟨text, rfl⟩
      all_goals exact absurd quiet Bool.false_ne_true
    refine ⟨?_, b.writer.draft.nextId, b.writer.draft.body.toList.length, ?_⟩
    · simp [run, perform_fail, logged, stops, isFail, Reply.error?, renderCall]
    · rw [run, perform_fail, after, renderCall, Writer.after_nothing fresh]
      rfl

omit unfinished fresh in
theorem any_isBreak (text : List Char) :
    text.any Draft.isBreak = true ↔ '\r' ∈ text ∨ '\n' ∈ text := by
  simp [Draft.isBreak, and_or_left, exists_or]

/-- A scope opens as its shell says, and closes with what the shell has after the body. -/
theorem opened?_eq {around : Around}
    (offered : isOffered b.handle.byKind b.writer.dialect around = true)
    (scope : b.isOpenRegion around = false) :
    match shell b.writer.draft.layout b.writer.draft.tight around with
    | .error e => b.opened? around = some (.error e)
    | .ok s => ∃ frame, b.writer.Leads s frame ∧
        b.opened? around = some (.ok (b.writer.entered s frame)) := by
  cases around with
  | indent =>
    exact ⟨_, Writer.leads_indent unfinished _ _ none,
      congrArg some (Writer.openIndent_eq unfinished fresh none none)⟩
  | indentLines start closing =>
    have known : b.handle.byKind = false := by simpa [isOffered] using offered
    refine ⟨_, Writer.leads_indent unfinished _ _ (some closing), ?_⟩
    rw [opened?, known]
    exact congrArg some (Writer.openIndent_eq unfinished fresh (some start) (some closing))
  | leftLines start closing =>
    have known : b.handle.byKind = false := by simpa [isOffered] using offered
    refine ⟨_, Writer.leads_left unfinished _ closing _, ?_⟩
    rw [opened?, known]
    exact congrArg some (Writer.openLeft_eq unfinished fresh start closing)
  | linePrefix text =>
    have known : b.handle.byKind = false := by simpa [isOffered] using offered
    by_cases broken : text.toList.any Draft.isBreak = true
    · have rejected : b.writer.openPrefix text = .error (.prefixContainsNewline text) := by
        simp [Writer.openPrefix, unfinished, broken]
      rw [shell, if_pos ((any_isBreak text.toList).1 broken), opened?, known]
      exact congrArg some rejected
    · rw [shell, if_neg (mt (any_isBreak text.toList).2 broken)]
      refine ⟨_, Writer.leads_linePrefix text _, ?_⟩
      rw [opened?, known]
      exact congrArg some (Writer.openPrefix_eq unfinished fresh (Bool.eq_false_iff.2 broken))
  | block =>
    simp only [isOffered, Bool.and_eq_true, Bool.not_eq_true'] at offered
    refine ⟨_, Writer.leads_indent unfinished _ _ (some "\x7d"), ?_⟩
    rw [opened?, offered.1, offered.2]
    exact congrArg some (Writer.openBlock_eq unfinished fresh)
  | disabled isDisabled message =>
    simp only [isOffered, Bool.and_eq_true, Bool.not_eq_true'] at offered
    cases isDisabled with
    | true =>
      refine ⟨_, Writer.leads_left unfinished _ "#endif" _, ?_⟩
      rw [opened?, offered.1, isCpp, offered.2]
      exact congrArg some (Writer.openDisabled_eq unfinished fresh message)
    | false => simp [isOpenRegion, isCpp, offered] at scope

end Acts

theorem stops_failed (propagates : Bool) (error : Option Error) :
    stops propagates ((error.map Reply.failed).getD .done) =
      if propagates then error else none := by
  cases error <;> cases propagates <;> rfl

theorem stops_ofUnit (propagates : Bool) (error : Option Error) :
    stops propagates (.ofUnit ((error.map Except.error).getD (.ok ()))) =
      if propagates then error else none := by
  cases error <;> cases propagates <;> rfl

/-- Leaving a scope turns what its body comes to into what the scope comes to. -/
theorem Follows.around {b : Bench} {s : Shell} {frame : Frame} {r : Rendering}
    {ran : List Entry × Option Error × Bench}
    (h : (b.withWriter (b.writer.entered s frame).2).Follows r ran)
    (leads : b.writer.Leads s frame) (propagates : Bool) (around : Around) :
    b.Follows ((s.around r).passing propagates)
      (let (result, w) :=
          ran.2.2.writer.leave frame.token ((ran.2.1.map Except.error).getD (.ok ()))
       let (entry, b') := (ran.2.2.withWriter w).logged (.inr around) (.ofUnit result)
       (ran.1 ++ [entry], stops propagates (.ofUnit result), b')) := by
  obtain ⟨entries, stop, b'⟩ := ran
  obtain ⟨error, n, mark, after⟩ := h
  simp only at error after
  subst error after
  have left : ((b.withWriter (b.writer.entered s frame).2).after r.text r.tight n mark).writer.leave
      frame.token ((r.error.map Except.error).getD (.ok ())) = _ :=
    leads.leave_eq r.text r.tight n _
  dsimp only
  rw [left]
  exact ⟨stops_ofUnit _ _, n, _, rfl⟩

/-- A region that is not disabled is its body. -/
theorem isOpenRegion_eq_true {b : Bench} {around : Around} (h : b.isOpenRegion around = true) :
    ∃ message, around = .disabled false message := by
  cases around
  case disabled isDisabled message =>
    cases isDisabled with
    | false => exact ⟨message, rfl⟩
    | true => exact absurd h Bool.false_ne_true
  all_goals exact absurd h Bool.false_ne_true

mutual

theorem run_follows (b : Bench) (unfinished : b.writer.finished = false)
    (fresh : b.writer.draft.fresh = true) (act : Act)
    (structured : isStructured b.handle.byKind b.writer.dialect act = true) :
    b.Follows (render b.handle.unnamed b.writer.draft.layout b.writer.draft.tight act)
      (b.run act) := by
  cases act with
  | call propagates command => exact run_call unfinished fresh propagates structured
  | within propagates around body =>
    rw [isStructured, Bool.and_eq_true] at structured
    obtain ⟨offered, structured⟩ := structured
    cases region : b.isOpenRegion around with
    | true =>
      obtain ⟨message, rfl⟩ := isOpenRegion_eq_true region
      obtain ⟨error, n, mark, after⟩ := runAll_follows b unfinished fresh body structured
      have nothing : ∀ r, ({ inner := b.writer.draft.layout, tight := b.writer.draft.tight } :
          Shell).around r = r := by simp [Shell.around]
      rw [run, if_pos region, render, shell]
      dsimp only
      rw [nothing]
      generalize b.runAll body = ran at *
      obtain ⟨entries, stop, b'⟩ := ran
      simp only at error after
      subst error after
      exact ⟨stops_failed _ _, n, _, rfl⟩
    | false =>
      have opened := opened?_eq unfinished fresh offered region
      rw [run, if_neg (Bool.eq_false_iff.1 region), render]
      cases shelled : shell b.writer.draft.layout b.writer.draft.tight around with
      | error e =>
        rw [shelled] at opened
        rw [opened]
        refine ⟨rfl, b.writer.draft.nextId, b.writer.draft.body.toList.length, ?_⟩
        rw [after, Rendering.passing, Writer.after_nothing fresh]
        rfl
      | ok s =>
        rw [shelled] at opened
        obtain ⟨frame, leads, opened⟩ := opened
        have inside := runAll_follows (b.withWriter (b.writer.entered s frame).2) unfinished rfl
          body structured
        rw [show (b.withWriter (b.writer.entered s frame).2).writer.draft.layout = s.inner from
          leads.inner] at inside
        rw [opened]
        exact inside.around leads propagates around

theorem runAll_follows (b : Bench) (unfinished : b.writer.finished = false)
    (fresh : b.writer.draft.fresh = true) (acts : List Act)
    (structured : allStructured b.handle.byKind b.writer.dialect acts = true) :
    b.Follows (renderAll b.handle.unnamed b.writer.draft.layout b.writer.draft.tight acts)
      (b.runAll acts) := by
  cases acts with
  | nil => exact ⟨rfl, b.writer.draft.nextId, b.handle.mark, (after_nothing fresh).symm⟩
  | cons act rest =>
    rw [allStructured, Bool.and_eq_true] at structured
    obtain ⟨error, n, mark, after⟩ := run_follows b unfinished fresh act structured.1
    rw [runAll, renderAll]
    generalize b.run act = ran at *
    obtain ⟨entries, stop, b'⟩ := ran
    simp only at error after
    subst error after
    generalize render b.handle.unnamed b.writer.draft.layout b.writer.draft.tight act = first at *
    cases stopped : first.error with
    | some e => exact ⟨stopped.symm, n, mark, rfl⟩
    | none =>
      obtain ⟨error, n', mark', after⟩ :=
        runAll_follows (b.after first.text first.tight n mark) unfinished rfl rest structured.2
      exact ⟨error, n', mark', after.trans (after_after ..)⟩

end

end Bench

end Script

end Emitter
