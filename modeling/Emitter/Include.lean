import Emitter.Path.Lexical

/-! Sets of included files, and the order in which their lines are written. -/

namespace Emitter

namespace Text

/-- The order of the code points, a beginning before what goes on. -/
def order : List Char → List Char → Ordering
  | [], [] => .eq
  | [], _ :: _ => .lt
  | _ :: _, [] => .gt
  | a :: as, b :: bs => (compare a.toNat b.toNat).then (order as bs)

end Text

inductive IncludeOrder where
  | ordinal
  | caseInsensitive
  | custom (compare : String → String → Ordering)

namespace IncludeOrder

def name : IncludeOrder → String
  | ordinal => "ordinal"
  | caseInsensitive => "case-insensitive"
  | custom _ => "custom"

/-- Letters are compared without their case first, for ASCII only. -/
def compare (a b : String) : IncludeOrder → Ordering
  | ordinal => Text.order a.toList b.toList
  | caseInsensitive =>
    (Text.order (a.toList.map Char.toLower) (b.toList.map Char.toLower)).then
      (Text.order a.toList b.toList)
  | custom compare => compare a b

end IncludeOrder

/-- Paths in the order of insertion, no two naming the same place. -/
structure IncludeSet where
  order : IncludeOrder := .ordinal
  paths : List Path := []

namespace IncludeSet

def contains (set : IncludeSet) (p : Path) : Bool := set.paths.any (p.same ·)

/-- The first spelling of a path stays. -/
def insert (set : IncludeSet) (p : Path) : IncludeSet :=
  if set.contains p then set else { set with paths := set.paths ++ [p] }

theorem contains_insert (set : IncludeSet) (p q : Path) :
    (set.insert p).contains q = (q.same p || set.contains q) := by
  simp only [insert]
  split
  next h =>
    cases hq : q.same p with
    | false => simp
    | true =>
      rw [Path.same_iff] at hq
      simp only [contains, Path.same, hq] at *
      simpa using h
  next => simp [contains, Bool.or_comm]

/-- Adds the paths of another set. -/
def merge (set other : IncludeSet) : IncludeSet := other.paths.foldl insert set

/-- Absolute paths are written as seen from the directory, others as they are. -/
def line (directory p : Path) : String :=
  if p.isAbsolute then (Path.relative directory p).toPortable else p.toPortable

/-- Each text once, where it stands first. -/
def distinct (texts : List String) : List String :=
  texts.foldl (fun seen text => if text ∈ seen then seen else seen ++ [text]) []

/-- The distinct lines in order; lines that compare equal stay as they were inserted. -/
def render (set : IncludeSet) (directory : Path) : List String :=
  (distinct (set.paths.map (line directory))).mergeSort fun a b => set.order.compare a b != .gt

end IncludeSet

end Emitter
