import Emitter.Output
import Emitter.Writer.Dialect
import Emitter.Writer.Draft

/-! Writers: a draft bound to an output file. Until it is finished a writer takes text and opens
and closes scopes. An operation that cannot fail half-way gives the new writer or an error. -/

namespace Emitter

structure Writer where
  dialect : Dialect
  output : Output
  directory : Path
  settings : Settings
  draft : Draft
  finished : Bool

namespace Writer

/-- Reserves the file; the directory is that of the absolute path. -/
def create (path : Path) (settings : Settings) (dialect : Dialect) (d : Disk) :
    Except Error Writer × Disk :=
  let absolute := Path.absolutize d.working path
  match Output.reserve path d with
  | (.error e, d) => (.error e, d)
  | (.ok output, d) =>
    (.ok {
      dialect, output, settings
      directory := absolute.parent?.getD d.working
      draft := { unit := settings.indent }
      finished := false }, d)

def path (w : Writer) : Path := w.output.path

def edit (w : Writer) (f : Draft → Draft) : Except Error Writer :=
  if w.finished then .error .writeAfterFinish else .ok { w with draft := f w.draft }

/-- An edit that needs an empty line. -/
def editFresh (w : Writer) (operation : LineOperation) (f : Draft → Draft) :
    Except Error Writer :=
  if w.finished then .error .writeAfterFinish
  else if w.draft.fresh then .ok { w with draft := f w.draft }
  else .error (.lineNotEmpty operation)

def write (w : Writer) (text : String) : Except Error Writer := w.edit (·.write text)

/-- A formatted text is put together from its pieces first, and written in one piece. -/
def writeFormatted (w : Writer) (pieces : List String) : Except Error Writer :=
  w.write (String.join pieces)

def writeChar (w : Writer) (c : Char) : Except Error Writer := w.edit (·.push c)

def writeLine (w : Writer) (text : String) : Except Error Writer := w.edit (·.writeLine text)

def blankLine (w : Writer) : Except Error Writer := w.writeChar '\n'

def writeLeftAdjusted (w : Writer) (text : String) : Except Error Writer :=
  w.editFresh .leftAdjusted (·.writeLeftAdjusted text)

def writeIndented (w : Writer) (text : String) : Except Error Writer :=
  w.editFresh .indented (·.writeIndented text)

def separate (w : Writer) : Except Error Writer := w.edit Draft.separate

/-- Needs no open file. -/
def noSeparation (w : Writer) : Writer := { w with draft := w.draft.noSeparation }

/-- The token of the scope that was opened last. -/
def issued (kind : ScopeKind) (w : Writer) : Token × Writer := (⟨w.draft.nextId - 1, kind⟩, w)

def openIndent (w : Writer) (start closing : Option String) : Except Error (Token × Writer) :=
  (w.edit (·.openIndent start closing)).map (issued .indent)

def openLeft (w : Writer) (start closing : String) : Except Error (Token × Writer) :=
  (w.editFresh .leftAdjusted (·.openLeft start closing)).map (issued .leftAdjusted)

def openPrefix (w : Writer) (linePrefix : String) : Except Error (Token × Writer) :=
  if w.finished then .error .writeAfterFinish
  else if linePrefix.toList.any Draft.isBreak then .error (.prefixContainsNewline linePrefix)
  else (w.edit (·.openPrefix linePrefix)).map (issued .linePrefix)

/-- A block between braces, which starts without an empty line. -/
def openBlock (w : Writer) : Except Error (Token × Writer) :=
  (w.openIndent (some "\x7b") (some "\x7d")).map fun (token, w) => (token, w.noSeparation)

def disabledStart : Option String → String
  | some message => "#if 0 // " ++ message
  | none => "#if 0"

/-- A region that the compiler skips. -/
def openDisabled (w : Writer) (message : Option String) : Except Error (Token × Writer) := do
  let w ← w.separate
  let (token, w) ← w.openLeft (disabledStart message) "#endif"
  return (token, w.noSeparation)

/-- Writes the last line of a scope that was just left. -/
def writeClosing (w : Writer) : Frame → Except Error Writer
  | .indent _ _ (some line) => w.writeLine line
  | .indent _ _ none => .ok w
  | .leftAdjusted _ _ line => w.writeLeftAdjusted line
  | .linePrefix .. => .ok w

/-- Closes the innermost scope. Where its last line cannot be written the scope is closed all the
same. -/
def close (w : Writer) (token : Token) : Except Error Unit × Writer :=
  match w.draft.closable token with
  | .error fault => (.error (.scopeMismatch fault), w)
  | .ok frame =>
    let w := { w with draft := w.draft.leave frame }
    match w.writeClosing frame with
    | .ok w => (.ok (), w)
    | .error e => (.error e, w)

/-- Ends a scope whose body has run. After a failed body the scopes it left open are dropped, and
its error goes before any from closing. -/
def leave (w : Writer) (token : Token) : Except Error Unit → Except Error Unit × Writer
  | .ok _ => w.close token
  | .error e =>
    let w := { w with draft := w.draft.unwindTo token }
    (.error e, (w.close token).2)

def edited (w : Writer) : Edit → Except Error Writer
  | .write text => w.write text
  | .writeChar c => w.writeChar c
  | .writeLine text => w.writeLine text
  | .blankLine => w.blankLine
  | .leftAdjusted text => w.writeLeftAdjusted text
  | .indented text => w.writeIndented text
  | .separate => w.separate

def opened (w : Writer) : Opening → Except Error (Token × Writer)
  | .indent start closing => w.openIndent start closing
  | .left start closing => w.openLeft start closing
  | .linePrefix text => w.openPrefix text
  | .block => w.openBlock
  | .disabled message => w.openDisabled message

/-- How a call ends, and the writer after it. -/
def call (w : Writer) : Call → Except Error Unit × Writer
  | .edit edit =>
    match w.edited edit with
    | .ok w => (.ok (), w)
    | .error e => (.error e, w)
  | .noSeparation => (.ok (), w.noSeparation)
  | .open_ opening =>
    match w.opened opening with
    | .ok (_, w) => (.ok (), w)
    | .error e => (.error e, w)
  | .close token => w.close token
  | .leave token result => w.leave token result

/-- One call after the other, however they end. -/
def callAll (w : Writer) (calls : List Call) : Writer :=
  calls.foldl (fun w call => (w.call call).2) w

end Writer

end Emitter
