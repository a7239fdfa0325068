import Emitter.Path.Basic
import Emitter.Settings

/-! The options of a session. -/

namespace Emitter

/-- Where a session writes, what it puts at the top of each file, whether it renames a file whose
name is taken, whether it logs its files and removes those of the run before, and how files are
written. -/
structure SessionOptions where
  baseOutputDirectory : Path := ⟨"."⟩
  generatedFileHeader : Option String := none
  autoRenameConflictingFiles : Bool := false
  writeFileLog : Bool := true
  cleanStaleOutput : Bool := true
  encoding : TextEncoding := .utf8
  lineEnding : LineEnding := .lf
  indent : Indent := .spaces 4
deriving DecidableEq, Repr, Inhabited

/-- The settings of every writer of the session. -/
def SessionOptions.settings (o : SessionOptions) : Settings :=
  ⟨o.generatedFileHeader, o.indent, ⟨o.encoding, o.lineEnding⟩⟩

end Emitter
