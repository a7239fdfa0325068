import Emitter.Writer.Draft

/-! Calls on a writer as data, and what a language of the caller's own does with them before a file
is finished. -/

namespace Emitter

namespace Writer

/-- Calls that add text. -/
inductive Edit where
  | write (text : String)
  | writeChar (c : Char)
  | writeLine (text : String)
  | blankLine
  | leftAdjusted (text : String)
  | indented (text : String)
  | separate

/-- The ways to open a scope. -/
inductive Opening where
  | indent (start closing : Option String)
  | left (start closing : String)
  | linePrefix (text : String)
  | block
  | disabled (message : Option String)

/-- All calls on the text and the scopes. A closure form is an opening, the calls of its body, and
the leave that its token goes to. Tokens are any, also ones that were never handed out. -/
inductive Call where
  | edit (edit : Edit)
  | noSeparation
  | open_ (opening : Opening)
  | close (token : Token)
  | leave (token : Token) (result : Except Error Unit)

/-- What can be read of a writer that is not finished. -/
structure View where
  path : Path
  directory : Path
  settings : Settings
  draft : Draft

end Writer

/-- What a hook does: its calls in order, those that fail too, the state that it leaves its language
in, if that is another, and how it ends. -/
structure Hook.Deeds where
  calls : List Writer.Call := []
  state : Option Nat := none
  result : Except Error Unit := .ok ()

/-- Runs before a file is finished, with the writer in its hands. Nothing but its own calls changes
the writer meanwhile, so all that it does is a function of what it finds. A hook that finishes the
file itself, and so would run inside its own run, is left out, and so is one that puts another writer
in the place of its own. -/
structure Hook where
  deeds : Writer.View → Hook.Deeds

namespace Hook

def idle : Hook := ⟨fun _ => {}⟩

/-- Adds a last line. -/
def footer : Hook := ⟨fun _ => { calls := [.edit .separate, .edit (.writeLine "# end")] }⟩

def refuse : Hook := ⟨fun _ => { result := .error (.unknownWriterKind "hook") }⟩

/-- Opens a scope and throws its token away. -/
def leave : Hook := ⟨fun _ => { calls := [.open_ (.indent (some "leak") none)] }⟩

end Hook

end Emitter
