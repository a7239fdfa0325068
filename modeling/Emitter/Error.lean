import Emitter.Disk.Basic
import Emitter.Text.Quoted
import Emitter.Writer.Scope

/-! What can go wrong, and how it is reported. -/

namespace Emitter

/-- The lines that can be written only where the current line is empty. -/
inductive LineOperation where
  | leftAdjusted
  | indented
deriving DecidableEq, Repr

inductive Error where
  | writeAfterFinish
  | alreadyFinished (path : Path)
  | unclosedScopes (path : Path) (depth : Nat)
  | scopeMismatch (fault : ScopeFault)
  | lineNotEmpty (operation : LineOperation)
  | prefixContainsNewline (linePrefix : String)
  | pathLocked (path : Path)
  | outputConflict (path : Path)
  | unknownWriterKind (kind : String)
  | io (path : Path) (fault : Fault)
  | config (file : String)
deriving DecidableEq, Repr

def LineOperation.text : LineOperation → String
  | leftAdjusted => "write a left-adjusted line"
  | indented => "write an indented line"

namespace ScopeFault

def expected : ScopeFault → String
  | noneOpen _ => "no open scope"
  | outOfOrder expected _ => expected.name
  | level expected _ => "indent level " ++ toString expected
  | linePrefix expected _ => "prefix " ++ Text.quote expected

def found : ScopeFault → String
  | noneOpen found => found.name
  | outOfOrder _ found => found.name
  | level _ found => "indent level " ++ toString found
  | linePrefix _ (some found) => "prefix Some(" ++ Text.quote found ++ ")"
  | linePrefix _ none => "prefix None"

end ScopeFault

namespace Error

def between (path : Path) : String := "'" ++ path.text ++ "'"

def message : Error → String
  | writeAfterFinish => "cannot write to a code writer after it has been finished"
  | alreadyFinished path => "code writer for " ++ between path ++ " was already finished"
  | unclosedScopes path depth =>
    toString depth ++ " scope(s) are still open while finishing " ++ between path
  | scopeMismatch fault =>
    "scope closed out of order: expected " ++ fault.expected ++ ", found " ++ fault.found
  | lineNotEmpty operation =>
    "cannot " ++ operation.text ++ " when the current line already contains text"
  | prefixContainsNewline p => "line prefix " ++ Text.quote p ++ " must not contain line breaks"
  | pathLocked path => between path ++ " is locked by another writer"
  | outputConflict path => between path ++ " was already written during this session"
  | unknownWriterKind kind => "no writer factory is registered for kind '" ++ kind ++ "'"
  | io path _ => "I/O error on " ++ between path
  | config file => "failed to parse session options from '" ++ file ++ "'"

def code : Error → String
  | writeAfterFinish => "scrivener::write_after_finish"
  | alreadyFinished _ => "scrivener::already_finished"
  | unclosedScopes .. => "scrivener::unclosed_scopes"
  | scopeMismatch _ => "scrivener::scope_mismatch"
  | lineNotEmpty _ => "scrivener::line_not_empty"
  | prefixContainsNewline _ => "scrivener::prefix_newline"
  | pathLocked _ => "scrivener::path_locked"
  | outputConflict _ => "scrivener::output_conflict"
  | unknownWriterKind _ => "scrivener::unknown_writer_kind"
  | io .. => "scrivener::io"
  | config _ => "scrivener::config"

def help : Error → Option String
  | unclosedScopes .. =>
    some "every opened indent, prefix or left-adjusted scope must be closed before finish()"
  | scopeMismatch _ => some "scopes nest strictly; close the innermost scope first"
  | pathLocked _ => some "two generator tasks are targeting the same output file"
  | outputConflict _ =>
    some "enable \x60auto_rename_conflicting_files\x60 or give each output a unique name"
  | _ => none

/-- A mistake of the calling generator, not of its surroundings. -/
def isContractViolation : Error → Bool
  | io .. => false
  | config _ => false
  | _ => true

end Error

end Emitter
