import Emitter.Error
import Emitter.Settings

/-! The text of a writer while it grows. Characters go in one at a time; the first one of a line
that is no line break brings the indentation and the line prefix with it. -/

namespace Emitter

/-- `fresh` says that nothing stands on the current line, `tight` that no empty line is due
before the next one, and `scopes` has the innermost scope first. -/
structure Draft where
  unit : Indent
  body : String := ""
  level : Nat := 0
  linePrefix : Option String := none
  fresh : Bool := true
  tight : Bool := true
  scopes : List Frame := []
  nextId : Nat := 0
deriving DecidableEq, Repr

namespace Draft

def isBreak (c : Char) : Bool := c == '\r' || c == '\n'

/-- What stands before the text of a line. -/
def margin (d : Draft) : String := d.unit.levels d.level ++ d.linePrefix.getD ""

def push (d : Draft) (c : Char) : Draft :=
  if d.fresh && !isBreak c then
    { d with body := (d.body ++ d.margin).push c, fresh := false, tight := false }
  else
    { d with body := d.body.push c, fresh := d.fresh || c == '\n', tight := false }

def write (d : Draft) (text : String) : Draft := text.toList.foldl push d

def writeLine (d : Draft) (text : String) : Draft := (d.write text).push '\n'

/-- An edit at another level, which is put back afterwards. -/
def atLevel (d : Draft) (level : Nat) (edit : Draft → Draft) : Draft :=
  { edit { d with level } with level := d.level }

def writeLeftAdjusted (d : Draft) (text : String) : Draft := d.atLevel 0 (·.writeLine text)

def writeIndented (d : Draft) (text : String) : Draft :=
  d.atLevel (d.level + 1) (·.writeLine text)

def noSeparation (d : Draft) : Draft := { d with tight := true }

/-- One line break, unless none is due. -/
def separate (d : Draft) : Draft := if d.tight then d else (d.push '\n').noSeparation

/-- Records an open scope. -/
def enter (d : Draft) (frame : Frame) : Draft :=
  { d with scopes := frame :: d.scopes, nextId := d.nextId + 1 }

def openIndent (d : Draft) (start closing : Option String) : Draft :=
  let d := match start with
    | some line => d.writeLine line
    | none => d
  let d := { d with level := d.level + 1 }
  d.enter (.indent d.nextId d.level closing)

def openLeft (d : Draft) (start closing : String) : Draft :=
  let d := d.writeLeftAdjusted start
  d.enter (.leftAdjusted d.nextId d.level closing)

def openPrefix (d : Draft) (linePrefix : String) : Draft :=
  let frame := Frame.linePrefix d.nextId linePrefix d.linePrefix
  { d with linePrefix := some linePrefix }.enter frame

/-- The frame that a token would close, if it is the innermost and the state is the recorded
one. -/
def closable (d : Draft) (token : Token) : Except ScopeFault Frame :=
  match d.scopes with
  | [] => .error (.noneOpen token)
  | frame :: _ =>
    if frame.token.id ≠ token.id then .error (.outOfOrder frame.token token)
    else match frame with
      | .linePrefix _ installed _ =>
        if d.linePrefix = some installed then .ok frame
        else .error (.linePrefix installed d.linePrefix)
      | .indent _ level _ | .leftAdjusted _ level _ =>
        if d.level = level then .ok frame else .error (.level level d.level)

/-- Takes the innermost frame off and goes back to the state before it, without its last line. -/
def leave (d : Draft) (frame : Frame) : Draft :=
  let d := { d with scopes := d.scopes.tail }
  match frame with
  | .indent .. => { d with level := d.level - 1 }
  | .leftAdjusted .. => d
  | .linePrefix _ _ previous => { d with linePrefix := previous }

/-- The state that a frame remembers, for a scope that its body left open. -/
def restore (d : Draft) : Frame → Draft
  | .indent _ level _ => { d with level := level - 1 }
  | .leftAdjusted _ level _ => { d with level }
  | .linePrefix _ _ previous => { d with linePrefix := previous }

/-- Drops the scopes inside the one of a token, innermost first. -/
def dropInner (id : Nat) (d : Draft) : List Frame → Draft
  | [] => { d with scopes := [] }
  | frame :: rest =>
    if frame.token.id = id then { d with scopes := frame :: rest }
    else dropInner id (d.restore frame) rest

def unwindTo (d : Draft) (token : Token) : Draft :=
  if d.scopes.any (·.token.id == token.id) then dropInner token.id d d.scopes else d

/-- How many scopes are open, for the report. -/
def depth (d : Draft) : Nat := max d.scopes.length d.level

@[simp] theorem level_push (d : Draft) (c : Char) : (d.push c).level = d.level := by
  simp only [push]; split <;> rfl

@[simp] theorem linePrefix_push (d : Draft) (c : Char) :
    (d.push c).linePrefix = d.linePrefix := by
  simp only [push]; split <;> rfl

@[simp] theorem scopes_push (d : Draft) (c : Char) : (d.push c).scopes = d.scopes := by
  simp only [push]; split <;> rfl

@[simp] theorem nextId_push (d : Draft) (c : Char) : (d.push c).nextId = d.nextId := by
  simp only [push]; split <;> rfl

/-- What no character changes, no text changes. -/
theorem write_keeps {α : Type} {view : Draft → α} (h : ∀ d c, view (push d c) = view d)
    (d : Draft) (text : String) : view (d.write text) = view d := by
  rw [write]
  induction text.toList generalizing d with
  | nil => rfl
  | cons c rest ih => rw [List.foldl_cons, ih, h]

@[simp] theorem level_write (d : Draft) (text : String) : (d.write text).level = d.level :=
  write_keeps level_push d text

@[simp] theorem linePrefix_write (d : Draft) (text : String) :
    (d.write text).linePrefix = d.linePrefix :=
  write_keeps linePrefix_push d text

@[simp] theorem scopes_write (d : Draft) (text : String) : (d.write text).scopes = d.scopes :=
  write_keeps scopes_push d text

@[simp] theorem nextId_write (d : Draft) (text : String) : (d.write text).nextId = d.nextId :=
  write_keeps nextId_push d text

end Draft

end Emitter
