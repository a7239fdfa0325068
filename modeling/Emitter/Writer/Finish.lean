import Emitter.Text.Lines
import Emitter.Writer.Basic

/-! Finishing a writer: the header, the preamble and the body go to the file in one piece. -/

namespace Emitter.Writer

def headerText (marker : String) (header : String) : String :=
  String.join ((Text.lines header.toList).map fun line => marker ++ String.ofList line ++ "\n")

/-- The whole text of the file. -/
def render (w : Writer) : String :=
  (w.settings.header.map (headerText w.dialect.commentMarker)).getD "" ++
    w.dialect.preamble w.directory ++ w.draft.body

def view (w : Writer) : View := ⟨w.path, w.directory, w.settings, w.draft⟩

/-- Runs the hook. -/
def beforeFinish (w : Writer) : Except Error Unit × Writer :=
  let deeds := w.dialect.hook.deeds w.view
  let called := w.callAll deeds.calls
  match deeds.state with
  | none => (deeds.result, called)
  | some state => (deeds.result, { called with dialect := w.dialect.enter state })

/-- Writes the file and releases it, once, and only when no scope is open. Where the write breaks off
the writer is finished all the same. -/
def finish (w : Writer) (d : Disk) (broken : Option Break := none) :
    Except Error Unit × Writer × Disk :=
  if w.finished then (.error (.alreadyFinished w.path), w, d)
  else match w.beforeFinish with
    | (.error e, w) => (.error e, w, d)
    | (.ok _, w) =>
      if w.draft.level > 0 ∨ w.draft.scopes ≠ [] then
        (.error (.unclosedScopes w.path w.draft.depth), w, d)
      else
        let (result, output, d) := w.output.commit w.render w.settings.format d broken
        let w := { w with output, finished := true, draft := { w.draft with body := "" } }
        (result.map fun _ => (), w, d)

/-- Finishes the file if it can, and lets go of it. -/
def drop (w : Writer) (d : Disk) (broken : Option Break := none) : Disk :=
  let (_, w, d) := w.finish d broken
  w.output.release d

end Emitter.Writer
