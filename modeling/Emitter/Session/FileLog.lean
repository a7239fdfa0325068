import Emitter.Output
import Emitter.Path.Lexical
import Emitter.Text.Blank
import Emitter.Text.Lines

/-! The log of the files that a session wrote, one line each, and the cleaning that the next
session does with it. -/

namespace Emitter.FileLog

/-- In the base directory. -/
def name : String := "FilesWritten.txt"

def path (base : Path) : Path := base.join ⟨name⟩

def render (base : Path) (written : List Path) : String :=
  String.join (written.map fun p => (Path.relative base p).toPortable ++ "\n")

/-- The paths that a log names: blanks around a line are dropped, and empty lines too. -/
def read (base : Path) (log : String) : List Path :=
  let lines := (Text.lines log.toList).map Text.trim
  (lines.filter (· ≠ [])).map fun line =>
    Path.absolutize base (.ofPortable (String.ofList line))

/-- Below the base, not the log, and not written this time. -/
def isStale (base : Path) (written : List Path) (p : Path) : Bool :=
  p.startsWith base && !p.same (path base) && !written.any (p.same ·)

/-- Removes the files that only the last log names. What cannot be removed is skipped. -/
def clean (base : Path) (written : List Path) (d : Disk) : Except Error Disk :=
  match d.readText (path base) with
  | .error .notFound => .ok d
  | .error fault => .error (.io (path base) fault)
  | .ok log => .ok (((read base log).filter (isStale base written)).foldl Disk.remove d)

/-- Writes the log in one piece. It can fail to be opened; that its write breaks off is left out. -/
def write (base : Path) (written : List Path) (d : Disk) : Except Error Unit × Disk :=
  match Output.reserve (path base) d with
  | (.error e, d) => (.error e, d)
  | (.ok o, d) =>
    let (result, _, d) := o.commit (render base written) {} d
    (result.map fun _ => (), d)

end Emitter.FileLog
