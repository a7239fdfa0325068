import Emitter.Script.Act

/-! Running steps on one writer. A body runs until a step in it fails and propagates; the steps of
a scope that cannot be opened do not run. -/

namespace Emitter.Script

/-- A writer by name. One that was opened by kind offers fewer calls. What its body held at the
last entry of the log is counted by `mark`. -/
structure Handle where
  writer : Writer
  byKind : Bool
  mark : Nat := 0

/-- A handle with what its calls may touch: the disk, and the tokens of all writers. -/
structure Bench where
  handle : Handle
  disk : Disk
  tokens : Table Token

/-- What was done, how it ended, and the writer after it. -/
structure Entry where
  deed : Command ⊕ Around
  reply : Reply
  status : Status

namespace Bench

def writer (b : Bench) : Writer := b.handle.writer

def withWriter (b : Bench) (writer : Writer) : Bench :=
  { b with handle := { b.handle with writer } }

def status (b : Bench) : Status :=
  let w := b.writer
  if b.handle.byKind then .brief w.dialect.kind w.path w.finished
  else .full w.draft.level w.draft.linePrefix w.draft.scopes.length w.draft.fresh w.finished
    (String.ofList (w.draft.body.toList.drop b.handle.mark))

/-- Adds nothing to the text from here on until more is written. -/
def marked (b : Bench) : Bench :=
  { b with handle := { b.handle with mark := b.writer.draft.body.toList.length } }

/-- A call that changes the writer or fails. -/
def apply (b : Bench) : Except Error Writer → Reply × Bench
  | .ok w => (.done, b.withWriter w)
  | .error e => (.failed e, b)

/-- Keeps the token of a scope that was opened. -/
def keep (b : Bench) (name : String) : Except Error (Token × Writer) → Reply × Bench
  | .ok (token, w) => (.token token, { b.withWriter w with tokens := b.tokens.put name token })
  | .error e => (.failed e, b)

/-- The token is given up even if closing fails. -/
def close (b : Bench) (name : String) : Reply × Bench :=
  match b.tokens.get? name with
  | none => (.notAvailable, b)
  | some token =>
    let (result, w) := b.writer.close token
    (.ofUnit result, { b.withWriter w with tokens := b.tokens.erase name })

def finish (b : Bench) : Reply × Bench :=
  let (result, w, disk) := b.writer.finish b.disk
  (.ofUnit result, { b.withWriter w with disk })

def withDialect (b : Bench) (dialect : Dialect) : Bench :=
  b.withWriter { b.writer with dialect }

/-- A call on the includes, where the dialect has them. -/
def withIncludes (b : Bench) (edit : Includes → Includes) : Reply × Bench :=
  match b.writer.dialect with
  | .cpp includes => (.done, b.withDialect (.cpp (edit includes)))
  | _ => (.notAvailable, b)

def setPreamble (b : Bench) (line : String) : Reply × Bench :=
  match b.writer.dialect with
  | .text marker _ => (.done, b.withDialect (.text marker (some line)))
  | _ => (.notAvailable, b)

def isCpp (b : Bench) : Bool := b.writer.dialect.includes?.isSome

/-- A call on a writer of a known dialect. -/
def performKnown (b : Bench) (command : Command) : Reply × Bench :=
  let w := b.writer
  match command with
  | .write text => b.apply (w.write text)
  | .writeChar c => b.apply (w.writeChar c)
  | .writeLine text => b.apply (w.writeLine text)
  | .blankLine => b.apply w.blankLine
  | .writeEquation text number => b.apply (w.writeFormatted [text, "=", toString number])
  | .writeLiteral => b.apply (w.writeFormatted ["literal \x7b\x7d\n"])
  | .leftAdjusted text => b.apply (w.writeLeftAdjusted text)
  | .indented text => b.apply (w.writeIndented text)
  | .noSeparation => (.done, b.withWriter w.noSeparation)
  | .separate => b.apply w.separate
  | .finish => b.finish
  | .render => (.text w.render, b)
  | .info => (.info w.path w.directory w.dialect.kind w.settings, b)
  | .openIndent name start closing => b.keep name (w.openIndent start closing)
  | .openLeft name start closing => b.keep name (w.openLeft start closing)
  | .openPrefix name text => b.keep name (w.openPrefix text)
  | .openBlock name =>
    if w.dialect.hasBlocks then b.keep name w.openBlock else (.notAvailable, b)
  | .openDisabled name message =>
    if b.isCpp then b.keep name (w.openDisabled message) else (.notAvailable, b)
  | .close name => b.close name
  | .setPreamble line => b.setPreamble line
  | .addQuoted path => b.withIncludes (·.addQuoted b.disk.working path)
  | .addSystem path => b.withIncludes (·.addSystem path)
  | .setIncludeBase path => b.withIncludes (·.setBase b.disk.working path)
  | .setIncludeOrder order => b.withIncludes (·.setOrder order)
  | .includes =>
    match w.dialect.includes? with
    | some i => (.includes i.quoted.paths i.system.paths, b)
    | none => (.notAvailable, b)
  | .fail text => (.failed (.unknownWriterKind (text.getD "fail")), b)

/-- A call on a writer that was opened by kind. -/
def performByKind (b : Bench) (command : Command) : Reply × Bench :=
  let w := b.writer
  match command with
  | .write text => b.apply (w.write text)
  | .writeLine text => b.apply (w.writeLine text)
  | .blankLine => b.apply w.blankLine
  | .separate => b.apply w.separate
  | .finish => b.finish
  | .fail text => (.failed (.unknownWriterKind (text.getD "")), b)
  | _ => (.notAvailable, b)

def perform (b : Bench) (command : Command) : Reply × Bench :=
  if b.handle.byKind then b.performByKind command else b.performKnown command

/-- How a scope opens; `none` where the writer does not offer it. -/
def opened? (b : Bench) : Around → Option (Except Error (Token × Writer))
  | .indent => some (b.writer.openIndent none none)
  | around =>
    if b.handle.byKind then none
    else match around with
      | .indentLines start closing => some (b.writer.openIndent (some start) (some closing))
      | .leftLines start closing => some (b.writer.openLeft start closing)
      | .linePrefix text => some (b.writer.openPrefix text)
      | .block => if b.writer.dialect.hasBlocks then some b.writer.openBlock else none
      | .disabled true message => if b.isCpp then some (b.writer.openDisabled message) else none
      | _ => none

/-- A region that runs its body without a scope. -/
def isOpenRegion (b : Bench) : Around → Bool
  | .disabled false _ => !b.handle.byKind && b.isCpp
  | _ => false

/-- The error that ends the steps around an act, if it has one. -/
def stops (propagates : Bool) (reply : Reply) : Option Error :=
  if propagates then reply.error? else none

def isFail : Command → Bool
  | .fail _ => true
  | _ => false

/-- One entry of the log, after which the writer is marked. -/
def logged (b : Bench) (deed : Command ⊕ Around) (reply : Reply) : Entry × Bench :=
  (⟨deed, reply, b.status⟩, b.marked)

mutual

/-- The log of an act, the error that it passes on, and the bench after it. -/
def run (b : Bench) : Act → List Entry × Option Error × Bench
  | .call propagates command =>
    let (reply, b) := b.perform command
    let (entry, b) := b.logged (.inl command) reply
    ([entry], stops (propagates || isFail command) reply, b)
  | .within propagates around body =>
    let (entries, reply, b) :=
      if b.isOpenRegion around then
        let (entries, error, b) := runAll b body
        (entries, (error.map Reply.failed).getD .done, b)
      else match b.opened? around with
        | none => ([], .notAvailable, b)
        | some (.error e) => ([], .failed e, b)
        | some (.ok (token, w)) =>
          let (entries, error, b) := runAll (b.withWriter w) body
          let (result, w) := b.writer.leave token ((error.map Except.error).getD (.ok ()))
          (entries, .ofUnit result, b.withWriter w)
    let (entry, b) := b.logged (.inr around) reply
    (entries ++ [entry], stops propagates reply, b)

/-- Acts one after the other, up to the first that passes on an error. -/
def runAll (b : Bench) : List Act → List Entry × Option Error × Bench
  | [] => ([], none, b)
  | act :: rest =>
    match run b act with
    | (entries, some error, b) => (entries, some error, b)
    | (entries, none, b) =>
      let (more, error, b) := runAll b rest
      (entries ++ more, error, b)

end

end Bench

end Emitter.Script
