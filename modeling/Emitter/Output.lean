import Emitter.Error
import Emitter.Format

/-! Output files: reserved and locked first, written once, then released. -/

namespace Emitter

/-- Holds its file from the reservation until the text is committed or the file is released. -/
structure Output where
  path : Path
  held : Option FileId
deriving DecidableEq, Repr

/-- How a write does not go through: after how many bytes, perhaps all of them, and why. -/
structure Break where
  written : Nat
  fault : Fault
deriving DecidableEq, Repr

namespace Output

/-- Makes or empties the file at a path and locks it. The file is emptied only under the lock, so
that a reservation that is refused touches no contents. -/
def reserve (path : Path) (d : Disk) : Except Error Output × Disk :=
  match d.makeParent path with
  | (.error (parent, fault), d) => (.error (.io parent fault), d)
  | (.ok _, d) =>
    match d.openFile path with
    | .error fault => (.error (.io path fault), d)
    | .ok (id, d) =>
      if d.isLocked id then (.error (.pathLocked path), d)
      else (.ok ⟨path, some id⟩, (d.lock id).setContent id [])

def isCommitted (o : Output) : Bool := o.held.isNone

/-- Writes the text, releases the lock and gives the number of bytes. A write that breaks off is
reported, and the file is let go of as it is then. -/
def commit (o : Output) (text : String) (format : FileFormat) (d : Disk)
    (broken : Option Break := none) : Except Error Nat × Output × Disk :=
  match o.held with
  | none => (.error (.alreadyFinished o.path), o, d)
  | some id =>
    let bytes := format.render text
    match broken with
    | none => (.ok bytes.length, { o with held := none }, (d.overwrite id bytes).unlock id)
    | some b => (.error (.io o.path b.fault), { o with held := none },
        (d.overwrite id (bytes.take b.written)).unlock id)

def release (o : Output) (d : Disk) : Disk :=
  match o.held with
  | none => d
  | some id => d.unlock id

end Output

end Emitter
