import Emitter.Text.Lines

/-! Paths. A path is its text; two paths name the same place when their components agree, whatever
their repeated slashes, slashes at the end and inner dots. A name that is no Unicode text, as a file
system may have it, has no path here. -/

namespace Emitter

structure Path where
  text : String
deriving DecidableEq, Repr, Inhabited

namespace Path

inductive Component where
  | root
  | current
  | parent
  | name (text : String)
deriving DecidableEq, Repr

def Component.text : Component → String
  | root => "/"
  | current => "."
  | parent => ".."
  | name text => text

def isAbsolute (p : Path) : Bool := p.text.toList.head? == some '/'

/-- What stands between the slashes. -/
def pieces (p : Path) : List (List Char) := Text.split '/' p.text.toList

/-- Nothing and a dot are no components. -/
def isTrivial (piece : List Char) : Bool := piece == [] || piece == ['.']

def component (piece : List Char) : Component :=
  if piece = ['.', '.'] then .parent else .name (String.ofList piece)

/-- The root or the dot that a path begins with. -/
def start (p : Path) : List Component :=
  if p.isAbsolute then [.root] else if p.pieces.head? = some ['.'] then [.current] else []

def components (p : Path) : List Component :=
  p.start ++ (p.pieces.filter (!isTrivial ·)).map component

/-- Naming the same place. -/
def same (p q : Path) : Bool := p.components == q.components

theorem same_iff (p q : Path) : p.same q ↔ p.components = q.components := by
  simp [same]

/-- The place is below the other, or the same. -/
def startsWith (p q : Path) : Bool := q.components.isPrefixOf p.components

/-- The other path seen from this one; an absolute path stays what it is. -/
def join (p q : Path) : Path :=
  if q.isAbsolute then q
  else if p.text.toList.getLast?.all (· == '/') then ⟨p.text ++ q.text⟩
  else ⟨p.text ++ "/" ++ q.text⟩

def ofComponents (components : List Component) : Path :=
  components.foldl (fun p c => p.join ⟨c.text⟩) ⟨""⟩

/-- The text of the first component if that is the root or a dot, and the text after it. -/
def head (p : Path) : List Char × List Char :=
  p.text.toList.splitAt p.start.length

def dropTrivial (pieces : List (List Char)) : List (List Char) :=
  (pieces.reverse.dropWhile isTrivial).reverse

/-- Without its last component; the root and the empty path have no parent. -/
def parent? (p : Path) : Option Path :=
  let (first, rest) := p.head
  match dropTrivial (Text.split '/' rest) with
  | [] => if p.start = [.current] then some ⟨""⟩ else none
  | pieces => some ⟨String.ofList (first ++ Text.join '/' (dropTrivial pieces.dropLast))⟩

def fileName? (p : Path) : Option String :=
  match p.components.getLast? with
  | some (.name text) => some text
  | _ => none

def withFileName (p : Path) (name : String) : Path :=
  match p.fileName?, p.parent? with
  | some _, some parent => parent.join ⟨name⟩
  | _, _ => p.join ⟨name⟩

def forwardSlashes (text : String) : String :=
  String.ofList (text.toList.map fun c => if c = '\\' then '/' else c)

/-- A path as callers write it, with slashes of either kind. -/
def ofPortable (text : String) : Path := ⟨forwardSlashes text⟩

def toPortable (p : Path) : String := forwardSlashes p.text

end Path

end Emitter
