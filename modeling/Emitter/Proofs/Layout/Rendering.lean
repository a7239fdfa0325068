import Emitter.Proofs.Layout.Line
import Emitter.Script.Bench

/-! What a tree of acts on whole lines comes to, by recursion on the tree alone: there is no stack
of scopes here and no character is looked at. -/

namespace Emitter.Script

/-- The text of an act, whether a separation is due after it, and the error that it ends with. -/
structure Rendering where
  text : String
  tight : Bool
  error : Option Error
deriving DecidableEq, Repr

/-- What a scope puts before and after its body, and how the body starts. -/
structure Shell where
  before : String := ""
  inner : Layout
  tight : Bool
  closing : Option String := none
deriving DecidableEq, Repr

/-- Lines of a scope that moves to the left stand at depth zero, as do the marks of a disabled
region; the prefix stays. A prefix with a line break opens nothing. -/
def shell (l : Layout) (tight : Bool) : Around → Except Error Shell
  | .indent => .ok { inner := l.moved (l.depth + 1), tight }
  | .indentLines start closing =>
    .ok ⟨l.paragraph start, l.moved (l.depth + 1), false, some (l.paragraph closing)⟩
  | .leftLines start closing =>
    .ok ⟨(l.moved 0).paragraph start, l, false, some ((l.moved 0).paragraph closing)⟩
  | .linePrefix text =>
    if '\r' ∈ text.toList ∨ '\n' ∈ text.toList then .error (.prefixContainsNewline text)
    else .ok { inner := { l with linePrefix := some text }, tight }
  | .block =>
    .ok ⟨l.paragraph "\x7b", l.moved (l.depth + 1), true, some (l.paragraph "\x7d")⟩
  | .disabled true message =>
    let separation := if tight then "" else "\n"
    let start := match message with
      | some message => "#if 0 // " ++ message
      | none => "#if 0"
    .ok ⟨separation ++ (l.moved 0).paragraph start, l, true, some ((l.moved 0).paragraph "#endif")⟩
  | .disabled false _ => .ok { inner := l, tight }

/-- The body between the lines of its scope. The last line comes after a failed body too. -/
def Shell.around (s : Shell) (r : Rendering) : Rendering :=
  ⟨s.before ++ r.text ++ s.closing.getD "", s.closing.isNone && r.tight, r.error⟩

/-- An error goes on where it propagates. -/
def Rendering.passing (r : Rendering) (propagates : Bool) : Rendering :=
  { r with error := if propagates then r.error else none }

/-- A statement; one that fails without a text of its own uses `unnamed`. -/
def renderCall (unnamed : String) (l : Layout) (tight : Bool) : Command → Rendering
  | .writeLine text => ⟨l.paragraph text, false, none⟩
  | .blankLine => ⟨"\n", false, none⟩
  | .leftAdjusted text => ⟨(l.moved 0).paragraph text, false, none⟩
  | .indented text => ⟨(l.moved (l.depth + 1)).paragraph text, false, none⟩
  | .separate => ⟨if tight then "" else "\n", true, none⟩
  | .noSeparation => ⟨"", true, none⟩
  | .fail text => ⟨"", tight, some (.unknownWriterKind (text.getD unnamed))⟩
  | _ => ⟨"", tight, none⟩

mutual

def render (unnamed : String) (l : Layout) (tight : Bool) : Act → Rendering
  | .call _ command => renderCall unnamed l tight command
  | .within propagates around body =>
    let r : Rendering := match shell l tight around with
      | .error e => ⟨"", tight, some e⟩
      | .ok s => s.around (renderAll unnamed s.inner s.tight body)
    r.passing propagates

/-- Nothing after an error is rendered. -/
def renderAll (unnamed : String) (l : Layout) (tight : Bool) : List Act → Rendering
  | [] => ⟨"", tight, none⟩
  | act :: rest =>
    let first := render unnamed l tight act
    match first.error with
    | some _ => first
    | none =>
      let more := renderAll unnamed l first.tight rest
      { more with text := first.text ++ more.text }

end

/-! ## The trees that are rendered -/

/-- Statements on whole lines. A writer that was opened by kind has fewer. -/
def isStatement (byKind : Bool) : Command → Bool
  | .writeLine _ => true
  | .blankLine => true
  | .separate => true
  | .fail _ => true
  | .leftAdjusted _ => !byKind
  | .indented _ => !byKind
  | .noSeparation => !byKind
  | _ => false

/-- Scopes that the dialect has. -/
def isOffered (byKind : Bool) (dialect : Dialect) : Around → Bool
  | .indent => true
  | .block => !byKind && dialect.hasBlocks
  | .disabled .. => !byKind && dialect.includes?.isSome
  | _ => !byKind

mutual

def isStructured (byKind : Bool) (dialect : Dialect) : Act → Bool
  | .call _ command => isStatement byKind command
  | .within _ around body => isOffered byKind dialect around && allStructured byKind dialect body

def allStructured (byKind : Bool) (dialect : Dialect) : List Act → Bool
  | [] => true
  | act :: rest => isStructured byKind dialect act && allStructured byKind dialect rest

end

end Emitter.Script
