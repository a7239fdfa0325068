import Emitter.Proofs.Scope.Return

/-! Operations step by step. What was done before a step that fails stays done, so that an operation
that fails changes nothing only if what it does before is nothing: it asks first, and then does what
cannot fail. Closing a scope takes it off the others before its last line is written, and is the one
operation that can fail in between. -/

namespace Emitter

/-- An empty line leaves the next one fresh, so where none is fresh no empty line was due. -/
theorem Draft.separate_eq_of_not_fresh {d : Draft} (h : d.separate.fresh = false) :
    d.separate = d := by
  unfold separate at h ⊢
  split
  · rfl
  · next loose =>
    rw [if_neg loose] at h
    simp [noSeparation, push, isBreak] at h

namespace Writer

/-- Steps that read and change a writer. An error ends them and leaves the writer as it is then. -/
abbrev Steps := ExceptT Error (StateM Writer)

namespace Steps

variable {α β : Type}

/-- How steps end, and the writer after them. -/
def result (steps : Steps α) (w : Writer) : Except Error α × Writer := steps.run.run w

/-- Goes on after the steps, also where they fail. -/
def attempt (steps : Steps α) : Steps (Except Error α) := ExceptT.lift steps.run

@[simp] theorem result_pure (a : α) (w : Writer) : result (pure a) w = (.ok a, w) := rfl

@[simp] theorem result_throw (e : Error) (w : Writer) :
    result (throw e : Steps α) w = (.error e, w) := rfl

@[simp] theorem result_get (w : Writer) : result get w = (.ok w, w) := rfl

@[simp] theorem result_attempt (steps : Steps α) (w : Writer) :
    result (attempt steps) w = (.ok (result steps w).1, (result steps w).2) := rfl

@[simp] theorem result_liftExcept (x : Except Error α) (w : Writer) :
    result (liftExcept x) w = (x, w) := by
  cases x <;> rfl

/-- Steps after others start from the writer that those leave. -/
theorem result_bind (steps : Steps α) (next : α → Steps β) (w : Writer) :
    result (steps >>= next) w = match result steps w with
      | (.ok a, w') => result (next a) w'
      | (.error e, w') => (.error e, w') := by
  show (steps.run >>= ExceptT.bindCont next).run w = _
  simp only [result, StateT.run_bind]
  rcases steps.run.run w with ⟨e | a, w'⟩ <;> rfl

/-! ## The operations -/

def edit (f : Draft → Draft) : Steps Unit := modify fun w => { w with draft := f w.draft }

@[simp] theorem result_edit (f : Draft → Draft) (w : Writer) :
    result (edit f) w = (.ok (), { w with draft := f w.draft }) := rfl

def ensureWritable : Steps Unit := do
  if (← get).finished then throw .writeAfterFinish

def requireEmptyLine (operation : LineOperation) : Steps Unit := do
  ensureWritable
  if !(← get).draft.fresh then throw (.lineNotEmpty operation)

def write (text : String) : Steps Unit := do
  ensureWritable
  forM text.toList fun c => edit (·.push c)

def writeChar (c : Char) : Steps Unit := do
  ensureWritable
  edit (·.push c)

def writeLine (text : String) : Steps Unit := do
  write text
  edit (·.push '\n')

/-- The level is put back however the steps end. -/
def atLevel (level : Nat → Nat) (steps : Steps Unit) : Steps Unit := do
  let saved := (← get).draft.level
  edit fun d => { d with level := level saved }
  let ended ← attempt steps
  edit fun d => { d with level := saved }
  liftExcept ended

def writeLeftAdjusted (text : String) : Steps Unit := do
  requireEmptyLine .leftAdjusted
  atLevel (fun _ => 0) (writeLine text)

def writeIndented (text : String) : Steps Unit := do
  requireEmptyLine .indented
  atLevel (· + 1) (writeLine text)

def separate : Steps Unit := do
  ensureWritable
  if !(← get).draft.tight then
    edit (·.push '\n')
    edit (·.noSeparation)

def edited : Edit → Steps Unit
  | .write text => write text
  | .writeChar c => writeChar c
  | .writeLine text => writeLine text
  | .blankLine => writeChar '\n'
  | .leftAdjusted text => writeLeftAdjusted text
  | .indented text => writeIndented text
  | .separate => separate

/-- Records a scope and hands out its token. -/
def enter (frame : Draft → Frame) : Steps Token := do
  let frame := frame (← get).draft
  edit (·.enter frame)
  return frame.token

def writeStart : Option String → Steps Unit
  | some line => writeLine line
  | none => pure ()

def openIndent (start closing : Option String) : Steps Token := do
  ensureWritable
  writeStart start
  edit fun d => { d with level := d.level + 1 }
  enter fun d => .indent d.nextId d.level closing

def openLeft (start closing : String) : Steps Token := do
  writeLeftAdjusted start
  enter fun d => .leftAdjusted d.nextId d.level closing

def openPrefix (linePrefix : String) : Steps Token := do
  ensureWritable
  if linePrefix.toList.any Draft.isBreak then throw (.prefixContainsNewline linePrefix)
  let previous := (← get).draft.linePrefix
  edit fun d => { d with linePrefix := some linePrefix }
  enter fun d => .linePrefix d.nextId linePrefix previous

def openBlock : Steps Token := do
  let token ← openIndent (some "\x7b") (some "\x7d")
  edit (·.noSeparation)
  return token

def openDisabled (message : Option String) : Steps Token := do
  separate
  let token ← openLeft (disabledStart message) "#endif"
  edit (·.noSeparation)
  return token

def opened : Opening → Steps Token
  | .indent start closing => openIndent start closing
  | .left start closing => openLeft start closing
  | .linePrefix text => openPrefix text
  | .block => openBlock
  | .disabled message => openDisabled message

def writeClosing : Frame → Steps Unit
  | .indent _ _ (some line) => writeLine line
  | .indent _ _ none => pure ()
  | .leftAdjusted _ _ line => writeLeftAdjusted line
  | .linePrefix .. => pure ()

def close (token : Token) : Steps Unit := do
  match (← get).draft.closable token with
  | .error fault => throw (.scopeMismatch fault)
  | .ok frame =>
    edit (·.leave frame)
    writeClosing frame

/-! ## All or nothing -/

/-- The steps of an operation that gives its value and its writer, or changes nothing. -/
structure AllOrNothing (steps : Steps α) (w : Writer) (operation : Except Error (α × Writer)) :
    Prop where
  all : ∀ a w', operation = .ok (a, w') → steps.result w = (.ok a, w')
  nothing : ∀ e, operation = .error e → steps.result w = (.error e, w)

theorem allOrNothing_iff {steps : Steps α} {w : Writer} {operation : Except Error (α × Writer)} :
    steps.AllOrNothing w operation ↔ steps.result w = match operation with
      | .ok (a, w') => (.ok a, w')
      | .error e => (.error e, w) := by
  constructor
  · intro h
    rcases operation with e | ⟨a, w'⟩
    · exact h.nothing e rfl
    · exact h.all a w' rfl
  · intro h
    refine ⟨fun a w' same => ?_, fun e same => ?_⟩
    · rw [h, same]
    · rw [h, same]

/-- What follows an operation that is all or nothing is that too, if it cannot fail. -/
theorem AllOrNothing.andThen {steps : Steps α} {w : Writer} {operation : Except Error (α × Writer)}
    (h : steps.AllOrNothing w operation) {next : α → Steps β} {after : α × Writer → β × Writer}
    (succeeds : ∀ a w', operation = .ok (a, w') →
      (next a).result w' = (.ok (after (a, w')).1, (after (a, w')).2)) :
    (steps >>= next).AllOrNothing w (operation.map after) := by
  rw [allOrNothing_iff, result_bind, allOrNothing_iff.1 h]
  rcases operation with e | ⟨a, w'⟩
  · rfl
  · exact succeeds a w' rfl

section Edits

variable {rest : Steps α} {f : Draft → Draft} {w : Writer} {value : Writer → α × Writer}

/-- It is asked whether the writer is finished, and what comes then cannot fail. -/
theorem allOrNothing_edit
    (succeeds : w.finished = false → rest.result w =
      (.ok (value { w with draft := f w.draft }).1, (value { w with draft := f w.draft }).2)) :
    (ensureWritable >>= fun _ => rest).AllOrNothing w ((w.edit f).map value) := by
  rw [allOrNothing_iff, result_bind, ensureWritable, result_bind]
  cases finished : w.finished with
  | false => simpa [Writer.edit, finished, Except.map] using succeeds finished
  | true => simp [Writer.edit, finished, Except.map]

/-- And whether the line is empty. -/
theorem allOrNothing_editFresh {operation : LineOperation}
    (succeeds : w.finished = false → rest.result w =
      (.ok (value { w with draft := f w.draft }).1, (value { w with draft := f w.draft }).2)) :
    (requireEmptyLine operation >>= fun _ => rest).AllOrNothing w
      ((w.editFresh operation f).map value) := by
  rw [allOrNothing_iff, result_bind, requireEmptyLine, result_bind, ensureWritable, result_bind]
  cases finished : w.finished with
  | false =>
    cases fresh : w.draft.fresh with
    | false => simp [Writer.editFresh, finished, fresh, Except.map, result_bind]
    | true =>
      simpa [Writer.editFresh, finished, fresh, Except.map, result_bind] using succeeds finished
  | true => simp [Writer.editFresh, finished, Except.map]

end Edits

/-- An operation that gives nothing but the writer. -/
def plain (operation : Except Error Writer) : Except Error (Unit × Writer) :=
  operation.map ((), ·)

/-! ## Text -/

theorem result_pushAll (chars : List Char) (w : Writer) :
    (forM chars fun c => edit (·.push c) : Steps Unit).result w =
      (.ok (), { w with draft := chars.foldl Draft.push w.draft }) := by
  induction chars generalizing w with
  | nil => rfl
  | cons c rest ih =>
    rw [List.forM_cons, result_bind, result_edit]
    exact ih _

theorem allOrNothing_write (text : String) (w : Writer) :
    (write text).AllOrNothing w (plain (w.write text)) :=
  allOrNothing_edit fun _ => result_pushAll text.toList w

theorem allOrNothing_writeChar (c : Char) (w : Writer) :
    (writeChar c).AllOrNothing w (plain (w.writeChar c)) :=
  allOrNothing_edit fun _ => rfl

theorem allOrNothing_writeLine (text : String) (w : Writer) :
    (writeLine text).AllOrNothing w (plain (w.writeLine text)) := by
  rw [writeLine, write, bind_assoc]
  refine allOrNothing_edit fun _ => ?_
  rw [result_bind, result_pushAll]
  rfl

theorem result_writeLine {w : Writer} (unfinished : w.finished = false) (text : String) :
    (writeLine text).result w = (.ok (), { w with draft := w.draft.writeLine text }) :=
  (allOrNothing_writeLine text w).all () _
    (by rw [Writer.writeLine, Writer.edit, unfinished]; rfl)

/-- A line at another level cannot fail halfway, so the level that is put back is the one before. -/
theorem result_atLevel {w : Writer} (unfinished : w.finished = false) (level : Nat → Nat)
    (text : String) : (atLevel level (writeLine text)).result w =
      (.ok (), { w with draft := w.draft.atLevel (level w.draft.level) (·.writeLine text) }) := by
  have wrote := @result_writeLine
    { w with draft := { w.draft with level := level w.draft.level } } unfinished text
  simp only [atLevel, result_bind, result_get, result_edit, result_attempt, wrote]
  rfl

theorem allOrNothing_writeLeftAdjusted (text : String) (w : Writer) :
    (writeLeftAdjusted text).AllOrNothing w (plain (w.writeLeftAdjusted text)) :=
  allOrNothing_editFresh fun unfinished => result_atLevel unfinished _ text

theorem allOrNothing_writeIndented (text : String) (w : Writer) :
    (writeIndented text).AllOrNothing w (plain (w.writeIndented text)) :=
  allOrNothing_editFresh fun unfinished => result_atLevel unfinished _ text

theorem allOrNothing_separate (w : Writer) : separate.AllOrNothing w (plain w.separate) := by
  refine allOrNothing_edit fun _ => ?_
  cases tight : w.draft.tight <;> simp [result_bind, tight, Draft.separate]

theorem allOrNothing_edited (edit : Edit) (w : Writer) :
    (edited edit).AllOrNothing w (plain (w.edited edit)) := by
  cases edit with
  | write text => exact allOrNothing_write text w
  | writeChar c => exact allOrNothing_writeChar c w
  | writeLine text => exact allOrNothing_writeLine text w
  | blankLine => exact allOrNothing_writeChar '\n' w
  | leftAdjusted text => exact allOrNothing_writeLeftAdjusted text w
  | indented text => exact allOrNothing_writeIndented text w
  | separate => exact allOrNothing_separate w

/-! ## Scopes -/

theorem result_enter (frame : Draft → Frame) (w : Writer) :
    (enter frame).result w =
      (.ok (frame w.draft).token, { w with draft := w.draft.enter (frame w.draft) }) := rfl

theorem allOrNothing_openIndent (start closing : Option String) (w : Writer) :
    (openIndent start closing).AllOrNothing w (w.openIndent start closing) := by
  refine allOrNothing_edit fun unfinished => ?_
  cases start with
  | none => rfl
  | some line =>
    rw [result_bind, writeStart, result_writeLine unfinished]
    rfl

theorem allOrNothing_openLeft (start closing : String) (w : Writer) :
    (openLeft start closing).AllOrNothing w (w.openLeft start closing) := by
  rw [openLeft, writeLeftAdjusted, bind_assoc]
  refine allOrNothing_editFresh fun unfinished => ?_
  rw [result_bind, result_atLevel unfinished]
  rfl

/-- Neither of the two checks changes anything. -/
theorem allOrNothing_openPrefix (linePrefix : String) (w : Writer) :
    (openPrefix linePrefix).AllOrNothing w (w.openPrefix linePrefix) := by
  rw [allOrNothing_iff, openPrefix, result_bind, ensureWritable, result_bind]
  unfold Writer.openPrefix
  cases finished : w.finished with
  | true => simp [finished]
  | false =>
    cases linePrefix.toList.any Draft.isBreak with
    | true => simp [finished]
    | false =>
      simp [finished, result_bind, result_enter, Writer.edit, Except.map, issued, Draft.openPrefix,
        Draft.enter, Frame.token]

theorem allOrNothing_openBlock (w : Writer) : openBlock.AllOrNothing w w.openBlock :=
  (allOrNothing_openIndent _ _ w).andThen fun _ _ _ => rfl

/-- A line at the left cannot be started only where text stands, and none stands after an empty
line. -/
theorem eq_of_separate_of_openLeft {w w₁ : Writer} {start closing : String} {e : Error}
    (separated : w.separate = .ok w₁) (h : w₁.openLeft start closing = .error e) : w₁ = w := by
  obtain ⟨unfinished, rfl⟩ := edit_eq_ok separated
  have busy : w.draft.separate.fresh = false := by
    cases fresh : w.draft.separate.fresh with
    | true => simp [Writer.openLeft, Writer.editFresh, unfinished, fresh, Except.map] at h
    | false => rfl
  rw [Draft.separate_eq_of_not_fresh busy]

theorem openDisabled_eq {w w₁ : Writer} (separated : w.separate = .ok w₁)
    (message : Option String) :
    w.openDisabled message = (w₁.openLeft (disabledStart message) "#endif").map fun opened =>
      (opened.1, opened.2.noSeparation) := by
  unfold Writer.openDisabled
  rw [separated]
  show (w₁.openLeft (disabledStart message) "#endif" >>= fun opened => _) = _
  cases w₁.openLeft (disabledStart message) "#endif" <;> rfl

/-- This one can fail after its first step, but not where that step has done anything. -/
theorem allOrNothing_openDisabled (message : Option String) (w : Writer) :
    (openDisabled message).AllOrNothing w (w.openDisabled message) := by
  rw [allOrNothing_iff, openDisabled, result_bind, allOrNothing_iff.1 (allOrNothing_separate w)]
  cases separated : w.separate with
  | error e =>
    unfold Writer.openDisabled
    rw [separated]
    rfl
  | ok w₁ =>
    dsimp only [plain, Except.map]
    rw [openDisabled_eq separated, result_bind, allOrNothing_iff.1 (allOrNothing_openLeft _ _ w₁)]
    cases ended : w₁.openLeft (disabledStart message) "#endif" with
    | ok opened => rfl
    | error e =>
      obtain rfl := eq_of_separate_of_openLeft separated ended
      rfl

theorem allOrNothing_opened (opening : Opening) (w : Writer) :
    (opened opening).AllOrNothing w (w.opened opening) := by
  cases opening with
  | indent start closing => exact allOrNothing_openIndent start closing w
  | left start closing => exact allOrNothing_openLeft start closing w
  | linePrefix text => exact allOrNothing_openPrefix text w
  | block => exact allOrNothing_openBlock w
  | disabled message => exact allOrNothing_openDisabled message w

theorem allOrNothing_writeClosing (frame : Frame) (w : Writer) :
    (writeClosing frame).AllOrNothing w (plain (w.writeClosing frame)) := by
  cases frame with
  | indent id level closing =>
    cases closing with
    | none => exact ⟨by rintro _ _ ⟨⟩; rfl, nofun⟩
    | some line => exact allOrNothing_writeLine line w
  | leftAdjusted id level line => exact allOrNothing_writeLeftAdjusted line w
  | linePrefix => exact ⟨by rintro _ _ ⟨⟩; rfl, nofun⟩

theorem result_close (token : Token) (w : Writer) : (close token).result w = w.close token := by
  rw [close, result_bind, result_get, Writer.close]
  dsimp only
  cases w.draft.closable token with
  | error fault => rfl
  | ok frame =>
    dsimp only
    rw [result_bind, result_edit]
    dsimp only
    rw [allOrNothing_iff.1 (allOrNothing_writeClosing frame _)]
    cases ({ w with draft := w.draft.leave frame } : Writer).writeClosing frame <;> rfl

end Steps

/-! ## What a failure changes -/

/-- The last line of the innermost scope needs an empty line, and text stands on this one. -/
def CutOff (w : Writer) (token : Token) : Prop :=
  w.draft.fresh = false ∧
    ∃ level closing outer, w.draft.scopes = .leftAdjusted token.id level closing :: outer

/-- No other last line fails. -/
theorem writeClosing_eq_error {w : Writer} (unfinished : w.finished = false) {frame : Frame}
    {e : Error} (h : w.writeClosing frame = .error e) :
    w.draft.fresh = false ∧ ∃ id level closing, frame = .leftAdjusted id level closing := by
  cases frame with
  | indent id level closing =>
    cases closing with
    | none => cases h
    | some line => simp [writeClosing, writeLine, edit, unfinished] at h
  | leftAdjusted id level closing =>
    cases fresh : w.draft.fresh with
    | true => simp [writeClosing, writeLeftAdjusted, editFresh, unfinished, fresh] at h
    | false => exact ⟨rfl, id, level, closing, rfl⟩
  | linePrefix id installed previous => cases h

theorem close_eq_error {w : Writer} (unfinished : w.finished = false) {token : Token}
    (whole : ¬ w.CutOff token) {e : Error} (h : (w.close token).1 = .error e) :
    (w.close token).2 = w := by
  unfold close at h ⊢
  cases found : w.draft.closable token with
  | error fault => rfl
  | ok frame =>
    rw [found] at h
    dsimp only at h ⊢
    cases closing : ({ w with draft := w.draft.leave frame } : Writer).writeClosing frame with
    | ok w' =>
      rw [closing] at h
      cases h
    | error fault =>
      have left := writeClosing_eq_error (w := { w with draft := w.draft.leave frame }) unfinished
        closing
      obtain ⟨busy, id, level, line, rfl⟩ := left
      obtain ⟨outer, innermost, rfl : id = token.id⟩ := Draft.closable_eq_ok found
      exact absurd ⟨busy, level, line, outer, innermost⟩ whole

/-- The scope is gone by the time that its last line is refused. -/
theorem close_cutOff {w : Writer} (sound : w.draft.nesting.Sound) (unfinished : w.finished = false)
    {token : Token} (cut : w.CutOff token) :
    w.close token = (.error (.lineNotEmpty .leftAdjusted),
      { w with draft := { w.draft with scopes := w.draft.scopes.tail } }) := by
  obtain ⟨busy, level, closing, outer, innermost⟩ := cut
  have found : w.draft.closable token = .ok (.leftAdjusted token.id level closing) :=
    Draft.closable_innermost sound innermost rfl
  rw [close, found]
  simp [writeClosing, writeLeftAdjusted, editFresh, Draft.leave, unfinished, busy]

theorem unfinished_of_open {w : Writer} (reachable : w.Reachable) (open_ : w.draft.scopes ≠ []) :
    w.finished = false := by
  cases finished : w.finished with
  | true => exact absurd (closed_of_finished reachable finished) open_
  | false => rfl

/-- Every operation that adds text or opens a scope does, step by step, all that it says, or it
fails and leaves the writer as it was. So does closing, unless the last line of the scope is cut
off: then the scope is taken off the others all the same. If it was the only one nothing is reported
later, and the file is finished without the line that ends it, unless a hook has something against
it. -/
theorem failed_unchanged_unless_cutOff {w : Writer} (reachable : w.Reachable) :
    (∀ edit, (Steps.edited edit).AllOrNothing w (Steps.plain (w.edited edit))) ∧
    (∀ opening, (Steps.opened opening).AllOrNothing w (w.opened opening)) ∧
    ∀ token, (Steps.close token).result w = w.close token ∧
      (¬ w.CutOff token → ∀ e, (w.close token).1 = .error e → (w.close token).2 = w ∧
        (w.dialect.TokenFree → w.draft.scopes ≠ [] →
          ∀ d, ((w.close token).2.finish d).1 ≠ .ok ())) ∧
      (w.CutOff token →
        w.close token = (.error (.lineNotEmpty .leftAdjusted),
          { w with draft := { w.draft with scopes := w.draft.scopes.tail } }) ∧
        (∀ d, ((w.close token).2.finish d).1 = .ok () ↔
          (w.close token).2.beforeFinish.1 = .ok () ∧
            (w.close token).2.beforeFinish.2.draft.scopes = []) ∧
        (w.dialect.Finishes →
          ∀ d, ((w.close token).2.finish d).1 = .ok () ↔ w.draft.scopes.tail = [])) := by
  refine ⟨fun edit => Steps.allOrNothing_edited edit w,
    fun opening => Steps.allOrNothing_opened opening w,
    fun token => ⟨Steps.result_close token w, fun whole e failed => ?_, fun cut => ?_⟩⟩
  · have kept : (w.close token).2 = w := by
      cases finished : w.finished with
      | true =>
        have none := closed_of_finished reachable finished
        have refused : ∃ fault, w.close token = (.error (.scopeMismatch fault), w) :=
          close_mismatch (by rw [none]; exact nofun)
        obtain ⟨fault, refused⟩ := refused
        rw [refused]
      | false => exact close_eq_error finished whole failed
    rw [kept]
    exact ⟨rfl, finish_open (sound_of_reachable reachable)⟩
  · have open_ : w.draft.scopes ≠ [] := by
      obtain ⟨-, level, closing, outer, innermost⟩ := cut
      rw [innermost]
      exact List.cons_ne_nil _ _
    have unfinished := unfinished_of_open reachable open_
    have closed := close_cutOff (sound_of_reachable reachable) unfinished cut
    have reached : (w.close token).2.Reachable := reachable.perform (.empty ⟨"/"⟩) (.close token)
    refine ⟨closed, ?_⟩
    rw [closed] at reached ⊢
    exact ⟨finish_ok_iff reached unfinished, finish_ok_iff_of_finishes reached unfinished⟩

/-- A region that the compiler skips loses its end to a half-written line. Before that, a second
region and a token of no scope are refused without a trace. -/
theorem failed_unchanged_unless_cutOff_region :
    let w : Writer := {
      dialect := .cLike, output := ⟨⟨"a"⟩, some 0⟩, directory := ⟨"/"⟩, settings := {}
      draft := { unit := .spaces 4 }, finished := false }
    let d : Disk := ⟨⟨"/"⟩, [(["a"], .file 0)], [[]], [0]⟩
    let s := performAll (w, d) [.open_ (.left "#if 0" "#endif"), .edit (.write "x"), .noSeparation]
    let token : Token := ⟨0, .leftAdjusted⟩
    (s.1.Reachable ∧ s.1.CutOff token ∧ ¬ s.1.CutOff ⟨1, .indent⟩) ∧
      (Steps.opened (.disabled none)).result s.1 = (.error (.lineNotEmpty .leftAdjusted), s.1) ∧
      ((s.1.close ⟨1, .indent⟩).2 = s.1 ∧ ∀ d', ((s.1.close ⟨1, .indent⟩).2.finish d').1 ≠ .ok ()) ∧
      (s.1.close token).1 = .error (.lineNotEmpty .leftAdjusted) ∧
      (s.1.close token).2.draft.scopes = [] ∧ (s.1.close token).2.draft.body = "#if 0\nx" ∧
      ∀ d', ((s.1.close token).2.finish d').1 = .ok () := by
  intro w d s token
  have created : create ⟨"a"⟩ {} .cLike (.empty ⟨"/"⟩) = (.ok w, d) := rfl
  have reachable : s.1.Reachable :=
    ⟨_, _, _, _, w, _, s.2, created, run_performAll (fun _ _ _ _ _ => trivial) (.refl _)⟩
  have scopes : s.1.draft.scopes = [.leftAdjusted 0 0 "#endif"] := by decide
  have cut : s.1.CutOff token := ⟨by decide, 0, "#endif", [], scopes⟩
  have whole : ¬ s.1.CutOff ⟨1, .indent⟩ := by
    rintro ⟨-, level, closing, outer, other⟩
    rw [scopes] at other
    cases other
  obtain ⟨-, opens, closes⟩ := failed_unchanged_unless_cutOff reachable
  have second := (opens (.disabled none)).nothing _ rfl
  have refused := (closes ⟨1, .indent⟩).2.1 whole _ rfl
  obtain ⟨closed, -, finishes⟩ := (closes token).2.2 cut
  have idle : s.1.dialect.Finishes := Dialect.finishes_of_idle rfl
  refine ⟨⟨reachable, cut, whole⟩, second, ⟨refused.1, refused.2 idle.tokenFree ?_⟩, ?_, ?_, ?_,
    fun d' => ?_⟩
  · rw [scopes]
    exact List.cons_ne_nil _ _
  · rw [closed]
  · rw [closed]
    rfl
  · rw [closed]
    rfl
  · exact (finishes idle d').2 (by rw [scopes]; rfl)

end Writer
end Emitter
