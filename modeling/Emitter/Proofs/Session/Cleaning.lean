import Emitter.Proofs.Session.Roundtrip

/-! Cleaning up by a log that may say anything. A line of it takes away at most the name of one file
below the base that was not written, whatever the other lines are (`FileLog.Swept`), and the log
that is written afterwards makes no names but its own and those of the folders above it. -/

namespace Emitter

namespace Disk

open Emitter.Path (IsName)

/-! ## Removing by paths that may lead nowhere -/

theorem Valid.remove {d : Disk} (valid : d.Valid) (p : Path) : (d.remove p).Valid := by
  intro place id found
  rw [files_remove]
  exact valid place id (node?_of_remove found)

/-- Of the names that are not there before, all are on the way to this place. -/
def NamesTo (target : Place) (d d' : Disk) : Prop :=
  ∀ place, d'.node? place = d.node? place ∨ d.node? place = none ∧ place <+: target

theorem NamesTo.refl (target : Place) (d : Disk) : NamesTo target d d := fun _ => .inl rfl

theorem NamesTo.trans {target : Place} {d₁ d₂ d₃ : Disk} (h : NamesTo target d₁ d₂)
    (h' : NamesTo target d₂ d₃) : NamesTo target d₁ d₃ := by
  intro place
  rcases h' place with same | ⟨none, inside⟩
  · rw [same]
    exact h place
  · rcases h place with same | new
    · exact .inr ⟨same ▸ none, inside⟩
    · exact .inr new

end Disk

namespace FileLog

/-! ## What a log takes away -/

/-- Named on a line of the log, below the base, and neither written this time nor the log. -/
structure Stale (base : Path) (written : List Path) (log : String) (p : Path) : Prop where
  named : ∃ line ∈ Text.lines log.toList, Text.trim line ≠ [] ∧
    p = Path.absolutize base (.ofPortable (String.ofList (Text.trim line)))
  below : base.components <+: p.components
  unwritten : p ∉ written
  notLog : p ≠ path base

section

variable {base : Path} {written : List Path} (normal : base.Normal)
  (all : ∀ p ∈ written, p.Normal) {p : Path}
include normal all

end

/-- Files at stale paths lose their names, all of them, and no other name is lost or made. -/
structure Swept (base : Path) (written : List Path) (log : String) (d d' : Disk) : Prop where
  only : ∀ place, d'.node? place = d.node? place ∨ ∃ p id, Stale base written log p ∧
    place = Disk.places p ∧ d.node? place = some (.file id) ∧ d'.node? place = none
  all : ∀ p id, Stale base written log p → d.file? p = .ok id → d'.node? (Disk.places p) = none

theorem Swept.of_nodes {base : Path} {written : List Path} {log : String} {d d₁ d₂ : Disk}
    (h : Swept base written log d d₁) (same : d₂.nodes = d₁.nodes) :
    Swept base written log d d₂ where
  only place := by
    rw [Disk.node?_congr same]
    exact h.only place
  all p id stale found := by
    rw [Disk.node?_congr same]
    exact h.all p id stale found

section Clean

variable {base : Path} {written : List Path} (normal : base.Normal)
  (all : ∀ p ∈ written, p.Normal) {d : Disk} {log : String}
  (read : d.readText (path base) = .ok log)
include normal all read

end Clean

/-! ## What writing the log does -/

/-- No contents change but those of the log, and they only if all ends well and there is to be
one. -/
structure Keeps (base : Path) (written : List Path) (logs : Bool) (d : Disk)
    (result : Except Error Unit) (d' : Disk) : Prop where
  others : ∀ id, logs = false ∨ d'.file? (path base) ≠ .ok id → d'.content id = d.content id
  failed : result ≠ .ok () → ∀ id, d'.content id = d.content id
  logged : result = .ok () → logs = true → ∃ id, d'.file? (path base) = .ok id ∧
    d'.content id = Text.Utf8.encode (String.join
      (written.map fun p => (Path.relative base p).toPortable ++ "\n")).toList

end FileLog

namespace Session

section Finish

variable {s : Session} (cleans : s.options.cleanStaleOutput = true) {d : Disk}
include cleans

variable (base : s.base.Normal)
include base

end Finish

end Session

end Emitter
