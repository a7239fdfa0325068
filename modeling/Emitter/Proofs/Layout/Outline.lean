import Emitter.Proofs.Layout.Rendering

/-! What acts on whole lines ask for, in the order in which they are run: lines, and calls about the
separation of lines. An outline knows nothing of what was written before. The rendering of a tree is
the text of its outline, where a separation is due after a line and until it was asked for
(`renderAll_eq`). -/

namespace Emitter

/-- The lines of a text as they are written. -/
def Layout.lines (l : Layout) (text : String) : List (List Char) :=
  (Text.split '\n' text.toList).map l.line

namespace Script

/-- A call about the empty line before the next line. -/
inductive Spacing where
  | separate
  | tight
deriving DecidableEq, Repr

/-- Lines that are written, or a call about separation. The line that a block or a disabled region
begins with opens it. -/
inductive Cue where
  | lines (opens : Bool) (lines : List (List Char))
  | spacing (call : Spacing)
deriving DecidableEq, Repr

/-- The cues of acts, and the error that they end with. -/
structure Outline where
  cues : List Cue
  error : Option Error
deriving DecidableEq, Repr

/-- What a scope asks for before its body, and the lines after it. -/
structure Edges where
  before : List Cue := []
  inner : Layout
  closing : Option (List (List Char)) := none
deriving DecidableEq, Repr

def edges (l : Layout) : Around → Except Error Edges
  | .indent => .ok { inner := l.moved (l.depth + 1) }
  | .indentLines start closing =>
    .ok ⟨[.lines false (l.lines start)], l.moved (l.depth + 1), some (l.lines closing)⟩
  | .leftLines start closing =>
    .ok ⟨[.lines false ((l.moved 0).lines start)], l, some ((l.moved 0).lines closing)⟩
  | .linePrefix text =>
    if '\r' ∈ text.toList ∨ '\n' ∈ text.toList then .error (.prefixContainsNewline text)
    else .ok { inner := { l with linePrefix := some text } }
  | .block =>
    .ok ⟨[.lines true (l.lines "\x7b"), .spacing .tight], l.moved (l.depth + 1),
      some (l.lines "\x7d")⟩
  | .disabled true message =>
    .ok ⟨[.spacing .separate, .lines true ((l.moved 0).lines (Writer.disabledStart message)),
      .spacing .tight], l, some ((l.moved 0).lines "#endif")⟩
  | .disabled false _ => .ok { inner := l }

/-- The body of a scope between its edges. -/
def Edges.around (e : Edges) (o : Outline) : Outline :=
  { o with cues := e.before ++ o.cues ++ e.closing.toList.map (.lines false) }

def outlineCall (unnamed : String) (l : Layout) : Command → Outline
  | .writeLine text => ⟨[.lines false (l.lines text)], none⟩
  | .blankLine => ⟨[.lines false [[]]], none⟩
  | .leftAdjusted text => ⟨[.lines false ((l.moved 0).lines text)], none⟩
  | .indented text => ⟨[.lines false ((l.moved (l.depth + 1)).lines text)], none⟩
  | .separate => ⟨[.spacing .separate], none⟩
  | .noSeparation => ⟨[.spacing .tight], none⟩
  | .fail text => ⟨[], some (.unknownWriterKind (text.getD unnamed))⟩
  | _ => ⟨[], none⟩

mutual

def outline (unnamed : String) (l : Layout) : Act → Outline
  | .call _ command => outlineCall unnamed l command
  | .within propagates around body =>
    let o : Outline := match edges l around with
      | .error e => ⟨[], some e⟩
      | .ok e => e.around (outlineAll unnamed e.inner body)
    { o with error := if propagates then o.error else none }

/-- Acts after an error are not run. -/
def outlineAll (unnamed : String) (l : Layout) : List Act → Outline
  | [] => ⟨[], none⟩
  | act :: rest =>
    let first := outline unnamed l act
    match first.error with
    | some _ => first
    | none =>
      let more := outlineAll unnamed l rest
      { more with cues := first.cues ++ more.cues }

end

/-! ## The text of an outline -/

/-- Lines, each closed by a newline. -/
def closed (lines : List (List Char)) : List Char := lines.flatMap (· ++ ['\n'])

/-- Whether no separation is due after cues. -/
def tightAfter : Bool → List Cue → Bool
  | tight, [] => tight
  | _, .lines .. :: rest => tightAfter false rest
  | _, .spacing _ :: rest => tightAfter true rest

/-- The lines of cues, with an empty one where separation is asked for and due. -/
def linesOf : Bool → List Cue → List (List Char)
  | _, [] => []
  | _, .lines _ lines :: rest => lines ++ linesOf false rest
  | tight, .spacing .separate :: rest => (if tight then [] else [[]]) ++ linesOf true rest
  | _, .spacing .tight :: rest => linesOf true rest

def Outline.rendering (o : Outline) (tight : Bool) : Rendering :=
  ⟨String.ofList (closed (linesOf tight o.cues)), tightAfter tight o.cues, o.error⟩

theorem closed_append (a b : List (List Char)) : closed (a ++ b) = closed a ++ closed b :=
  List.flatMap_append

theorem tightAfter_append (tight : Bool) (a b : List Cue) :
    tightAfter tight (a ++ b) = tightAfter (tightAfter tight a) b := by
  induction a generalizing tight with
  | nil => rfl
  | cons cue rest ih => cases cue <;> exact ih _

theorem linesOf_append (tight : Bool) (a b : List Cue) :
    linesOf tight (a ++ b) = linesOf tight a ++ linesOf (tightAfter tight a) b := by
  induction a generalizing tight with
  | nil => rfl
  | cons cue rest ih =>
    rcases cue with ⟨opens, lines⟩ | call
    · exact (congrArg (lines ++ ·) (ih false)).trans (List.append_assoc ..).symm
    · cases call with
      | separate =>
        exact (congrArg ((if tight then [] else [[]]) ++ ·) (ih true)).trans
          (List.append_assoc ..).symm
      | tight => exact ih true

theorem paragraph_eq (l : Layout) (text : String) :
    l.paragraph text = String.ofList (closed (l.lines text)) := by
  rw [Layout.paragraph, closed, Layout.lines, List.flatMap_map]

/-! ## Renderings -/

/-- The text of the edges of a scope. -/
def Edges.shell (e : Edges) (tight : Bool) : Shell where
  before := String.ofList (closed (linesOf tight e.before))
  inner := e.inner
  tight := tightAfter tight e.before
  closing := e.closing.map fun lines => String.ofList (closed lines)

theorem shell_eq (l : Layout) (tight : Bool) (around : Around) :
    shell l tight around = (edges l around).map (·.shell tight) := by
  cases around with
  | linePrefix text =>
    by_cases broken : '\r' ∈ text.toList ∨ '\n' ∈ text.toList
    · rw [shell, edges, if_pos broken, if_pos broken]
      rfl
    · rw [shell, edges, if_neg broken, if_neg broken]
      rfl
  | disabled isDisabled message =>
    cases isDisabled with
    | false => rfl
    | true =>
      unfold shell edges
      cases tight <;> cases message <;>
        simp [Except.map, Edges.shell, paragraph_eq, linesOf, tightAfter, closed,
          Writer.disabledStart]
  | _ => simp [shell, edges, Except.map, Edges.shell, paragraph_eq, linesOf, tightAfter, closed]

theorem around_rendering (e : Edges) (o : Outline) (tight : Bool) :
    (e.shell tight).around (o.rendering (tightAfter tight e.before)) =
      (e.around o).rendering tight := by
  unfold Edges.shell Edges.around Shell.around Outline.rendering
  cases e.closing with
  | none => simp [linesOf_append, tightAfter_append, closed_append]
  | some lines =>
    simp [linesOf_append, tightAfter_append, closed_append, String.ext_iff, linesOf, tightAfter]

theorem renderCall_eq (unnamed : String) (l : Layout) (tight : Bool) (command : Command) :
    renderCall unnamed l tight command = (outlineCall unnamed l command).rendering tight := by
  cases command with
  | separate => cases tight <;> rfl
  | _ =>
    simp [renderCall, outlineCall, Outline.rendering, paragraph_eq, linesOf, tightAfter, closed]

mutual

theorem render_eq (unnamed : String) (l : Layout) (tight : Bool) (act : Act) :
    render unnamed l tight act = (outline unnamed l act).rendering tight := by
  cases act with
  | call propagates command => exact renderCall_eq unnamed l tight command
  | within propagates around body =>
    rw [render, outline, shell_eq]
    cases edges l around with
    | error e => rfl
    | ok e =>
      have inside := renderAll_eq unnamed e.inner (tightAfter tight e.before) body
      have whole := around_rendering e (outlineAll unnamed e.inner body) tight
      rw [← inside] at whole
      exact congrArg (·.passing propagates) whole

theorem renderAll_eq (unnamed : String) (l : Layout) (tight : Bool) (acts : List Act) :
    renderAll unnamed l tight acts = (outlineAll unnamed l acts).rendering tight := by
  cases acts with
  | nil => rfl
  | cons act rest =>
    have first := render_eq unnamed l tight act
    rw [renderAll, outlineAll, first]
    generalize outline unnamed l act = o
    obtain ⟨cues, error⟩ := o
    cases error with
    | some e => rfl
    | none =>
      have more := renderAll_eq unnamed l (tightAfter tight cues) rest
      dsimp only [Outline.rendering] at more ⊢
      rw [more, linesOf_append, tightAfter_append, closed_append, String.ofList_append]

end

end Script

end Emitter
