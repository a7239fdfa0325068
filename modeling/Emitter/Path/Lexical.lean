import Emitter.Path.Basic

/-! Paths computed from their text alone: normal forms, absolute paths, and the way from one
directory to a target. -/

namespace Emitter.Path

/-- One component onto the components before it, the last first. A dot adds nothing; two dots take
back a name, stop at the root and stay elsewhere. -/
def Component.onto (before : List Component) (c : Component) : List Component :=
  match c, before with
  | .current, before => before
  | .parent, .name _ :: before => before
  | .parent, .root :: before => .root :: before
  | c, before => c :: before

def fold (components : List Component) : List Component :=
  (components.foldl Component.onto []).reverse

/-- No component left is a dot. -/
def normal (components : List Component) : List Component :=
  match fold components with
  | [] => [.current]
  | folded => folded

def normalize (p : Path) : Path := ofComponents (normal p.components)

/-- The normal form, seen from a base unless the path is absolute. -/
def absolutize (base p : Path) : Path :=
  if p.isAbsolute then p.normalize else (base.join p).normalize

/-- Steps up to the common part, then down to the target. -/
def way (source target : List Component) : List Component :=
  match source, target with
  | a :: source, b :: target =>
    if a = b then way source target
    else (a :: source).map (fun _ => .parent) ++ b :: target
  | source, target => source.map (fun _ => .parent) ++ target

/-- The target as seen from a directory. Paths that do not start alike share nothing, and the
target stays what it is. -/
def relative (directory target : Path) : Path :=
  let source := directory.normalize.components
  let goal := target.normalize.components
  if source.head? ≠ goal.head? then target.normalize
  else match way source goal with
    | [] => ⟨"."⟩
    | steps => ofComponents steps

end Emitter.Path
