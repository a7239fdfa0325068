import Emitter.Text.Quoted
import Emitter.Writer.Finish

/-! Writers chosen by the name of their kind. A registry gives each kind the factory that makes its
writers. -/

namespace Emitter

/-- Makes a writer at a path, or fails. -/
abbrev Factory := Path → Settings → Disk → Except Error Writer × Disk

/-- Its writers start with a dialect. -/
def Factory.ofDialect (dialect : Dialect) : Factory := fun path settings d =>
  Writer.create path settings dialect d

/-- Kinds in the order of registration, each once. -/
structure Registry where
  entries : List (String × Factory) := []

namespace Registry

def kinds (r : Registry) : List String := r.entries.map (·.1)

def contains (r : Registry) (kind : String) : Bool := r.kinds.contains kind

/-- A kind that is there keeps its place. -/
def register (r : Registry) (kind : String) (factory : Factory) : Registry :=
  if r.contains kind then
    { r with entries := r.entries.map fun e => if e.1 = kind then (kind, factory) else e }
  else { r with entries := r.entries ++ [(kind, factory)] }

theorem contains_register (r : Registry) (kind other : String) (factory : Factory) :
    (r.register kind factory).contains other = (other == kind || r.contains other) := by
  simp only [register]
  split
  next h =>
    have keys : (r.entries.map fun e => if e.1 = kind then (kind, factory) else e).map (·.1) =
        r.entries.map (·.1) := by
      rw [List.map_map]
      refine List.map_congr_left fun e _ => ?_
      simp only [Function.comp]
      split <;> simp_all
    simp only [contains, kinds, keys] at *
    by_cases o : other = kind
    · subst o; simpa using h
    · simp [o]
  next =>
    rw [Bool.eq_iff_iff]; simp [contains, kinds, or_comm]

/-- Under the dialect's own kind, as it is by default. -/
def registerDialect (r : Registry) (dialect : Dialect) : Registry :=
  r.register dialect.kind (.ofDialect dialect.plain)

def builtins : Registry :=
  [Dialect.text "" none, .cLike, .cpp {}].foldl registerDialect {}

def create (r : Registry) (kind : String) (path : Path) (settings : Settings) (d : Disk) :
    Except Error Writer × Disk :=
  match r.entries.lookup kind with
  | none => (.error (.unknownWriterKind kind), d)
  | some factory => factory path settings d

def text (r : Registry) : String :=
  "WriterRegistry \x7b kinds: [" ++ ", ".intercalate (r.kinds.map Text.quote) ++ "] \x7d"

end Registry

end Emitter
