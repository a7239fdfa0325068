import Emitter.Bytes
import Emitter.Path.Basic
import Emitter.Text.Utf8

/-! A tree of folders and files. A name leads to a file and a file has contents of its own, so a
file that is held open outlives its name. Files can be locked, by one holder at a time. There are no
links, no special files and no permissions: a file has the names that it was made with, and what
fails does so by the shape of the tree. -/

namespace Emitter

/-- What is wrong with an operation on the tree. -/
inductive Fault where
  | notFound
  | isADirectory
  | notADirectory
  | alreadyExists
  | invalidFilename
  | invalidInput
  | invalidData
deriving DecidableEq, Repr

/-- The names from the root down. -/
abbrev Place := List String

abbrev FileId := Nat

inductive Node where
  | folder
  | file (id : FileId)
deriving DecidableEq, Repr

/-- The root is a folder that needs no entry. Files are numbered in the order of creation. -/
structure Disk where
  working : Path
  nodes : List (Place × Node)
  files : List Bytes
  locked : List FileId
deriving Repr

namespace Disk

def node? (d : Disk) : Place → Option Node
  | [] => some .folder
  | place => d.nodes.lookup place

def content (d : Disk) (id : FileId) : Bytes := d.files.getD id []

def addNode (d : Disk) (place : Place) (node : Node) : Disk :=
  { d with nodes := d.nodes ++ [(place, node)] }

def maxNameBytes : Nat := 255

def maxPathBytes : Nat := 4095

def isLong (name : String) : Bool := maxNameBytes < name.utf8ByteSize

/-- From a folder through the folders with these names. -/
def walk (d : Disk) : Place → List String → Except Fault Place
  | place, [] => .ok place
  | place, name :: rest =>
    if name = "." then walk d place rest
    else if name = ".." then walk d place.dropLast rest
    else if isLong name then .error .invalidFilename
    else match d.node? (place ++ [name]) with
      | none => .error .notFound
      | some (.file _) => .error .notADirectory
      | some .folder => walk d (place ++ [name]) rest

/-- Where a path leads: to a folder, or to a name in a folder, perhaps with a slash after it. -/
inductive Target where
  | folder (place : Place)
  | name (parent : Place) (name : String) (slash : Bool)

def places (p : Path) : Place :=
  (p.pieces.filter (· ≠ [])).map String.ofList

def origin (d : Disk) (p : Path) : Place :=
  if p.isAbsolute then [] else places d.working

def locate (d : Disk) (p : Path) : Except Fault Target :=
  if p.text.toList.contains '\x00' then .error .invalidInput
  else if p.text = "" then .error .notFound
  else if maxPathBytes < p.text.utf8ByteSize then .error .invalidFilename
  else match (places p).getLast? with
    | none => .ok (.folder (d.origin p))
    | some last =>
      match d.walk (d.origin p) (places p).dropLast with
      | .error fault => .error fault
      | .ok parent =>
        if last = "." then .ok (.folder parent)
        else if last = ".." then .ok (.folder parent.dropLast)
        else .ok (.name parent last (p.text.toList.getLast? == some '/'))

def isFolder (d : Disk) (p : Path) : Bool :=
  match d.locate p with
  | .ok (.folder _) => true
  | .ok (.name parent name _) => !isLong name && d.node? (parent ++ [name]) == some .folder
  | .error _ => false

def makeFolder (d : Disk) (p : Path) : Except Fault Disk :=
  match d.locate p with
  | .error fault => .error fault
  | .ok (.folder _) => .error .alreadyExists
  | .ok (.name parent name _) =>
    if isLong name then .error .invalidFilename
    else if (d.node? (parent ++ [name])).isSome then .error .alreadyExists
    else .ok (d.addNode (parent ++ [name]) .folder)

/-- The first path of a list that starts with a path and goes on with its parents, after making
those it needs. -/
def makeChain (d : Disk) : List Path → Except Fault Unit × Disk
  | [] => (.error .notFound, d)
  | p :: parents =>
    if p.text = "" then (.ok (), d)
    else match d.makeFolder p with
      | .ok d => (.ok (), d)
      | .error .notFound =>
        match makeChain d parents with
        | (.error fault, d) => (.error fault, d)
        | (.ok _, d) => match d.makeFolder p with
          | .ok d => (.ok (), d)
          | .error fault => (if d.isFolder p then .ok () else .error fault, d)
      | .error fault => (if d.isFolder p then .ok () else .error fault, d)

/-- The path and its parents, at most as many as the fuel. -/
def ancestors : Nat → Path → List Path
  | 0, p => [p]
  | fuel + 1, p => p :: match p.parent? with
    | some parent => ancestors fuel parent
    | none => []

/-- A folder and the folders above it, where they are missing. -/
def makeFolders (d : Disk) (p : Path) : Except Fault Unit × Disk :=
  d.makeChain (ancestors p.text.toList.length p)

/-- The folder that a file is to stand in. -/
def makeParent (d : Disk) (p : Path) : Except (Path × Fault) Unit × Disk :=
  match p.parent? with
  | some parent =>
    if parent.text = "" then (.ok (), d)
    else match d.makeFolders parent with
      | (.ok _, d) => (.ok (), d)
      | (.error fault, d) => (.error (parent, fault), d)
  | none => (.ok (), d)

/-- The file at a path, for writing; a new one if there is none. -/
def openFile (d : Disk) (p : Path) : Except Fault (FileId × Disk) :=
  match d.locate p with
  | .error fault => .error fault
  | .ok (.folder _) => .error .isADirectory
  | .ok (.name _ _ true) => .error .isADirectory
  | .ok (.name parent name false) =>
    if isLong name then .error .invalidFilename
    else match d.node? (parent ++ [name]) with
      | some .folder => .error .isADirectory
      | some (.file id) => .ok (id, d)
      | none =>
        let id := d.files.length
        .ok (id, { d.addNode (parent ++ [name]) (.file id) with files := d.files ++ [[]] })

/-- The file at a path, for reading. -/
def file? (d : Disk) (p : Path) : Except Fault FileId :=
  match d.locate p with
  | .error fault => .error fault
  | .ok (.folder _) => .error .isADirectory
  | .ok (.name parent name slash) =>
    if isLong name then .error .invalidFilename
    else match d.node? (parent ++ [name]) with
      | none => .error .notFound
      | some .folder => .error .isADirectory
      | some (.file id) => if slash then .error .notADirectory else .ok id

def readText (d : Disk) (p : Path) : Except Fault String :=
  match d.file? p with
  | .error fault => .error fault
  | .ok id => match Text.Utf8.decode? (d.content id) with
    | some text => .ok (String.ofList text)
    | none => .error .invalidData

/-- Replaces the contents of a file. -/
def setContent (d : Disk) (id : FileId) (bytes : Bytes) : Disk :=
  { d with files := d.files.set id bytes }

/-- Writes over the beginning of a file; what was longer stays. -/
def overwrite (d : Disk) (id : FileId) (bytes : Bytes) : Disk :=
  d.setContent id (bytes ++ (d.content id).drop bytes.length)

def writeFile (d : Disk) (p : Path) (bytes : Bytes) : Disk :=
  let d := (d.makeParent p).2
  match d.openFile p with
  | .ok (id, d) => d.setContent id bytes
  | .error _ => d

/-- Removes the name of a file. Folders and missing names stay as they are. -/
def remove (d : Disk) (p : Path) : Disk :=
  match d.locate p with
  | .ok (.name parent name false) =>
    match d.node? (parent ++ [name]) with
    | some (.file _) => { d with nodes := d.nodes.filter (·.1 ≠ parent ++ [name]) }
    | _ => d
  | _ => d

def isLocked (d : Disk) (id : FileId) : Bool := d.locked.contains id

def lock (d : Disk) (id : FileId) : Disk := { d with locked := id :: d.locked }

def unlock (d : Disk) (id : FileId) : Disk := { d with locked := d.locked.filter (· ≠ id) }

/-- An empty working folder and the folders above it. -/
def empty (working : Path) : Disk :=
  let names := places working
  { working
    nodes := (List.range names.length).map fun n => (names.take (n + 1), .folder)
    files := []
    locked := [] }

/-- What a name leads to, as it is shown. -/
inductive Shown where
  | folder
  | file (bytes : Bytes)

/-- All below the working folder, by path. -/
def tree (d : Disk) : List (String × Shown) :=
  let top := places d.working
  d.nodes.filterMap fun (place, node) =>
    if top.isPrefixOf place && top.length < place.length then
      let name := "/".intercalate (place.drop top.length)
      some (name, match node with
        | .folder => .folder
        | .file id => .file (d.content id))
    else none

theorem content_setContent (d : Disk) (id : FileId) (bytes : Bytes) (h : id < d.files.length) :
    (d.setContent id bytes).content id = bytes := by
  simp [setContent, content, h]

theorem content_setContent_of_ne (d : Disk) {id other : FileId} (bytes : Bytes) (h : other ≠ id) :
    (d.setContent id bytes).content other = d.content other := by
  simp [setContent, content, Ne.symm h]

@[simp] theorem isLocked_lock (d : Disk) (id other : FileId) :
    (d.lock id).isLocked other = (other == id || d.isLocked other) := by
  rw [Bool.eq_iff_iff]; simp [lock, isLocked]

@[simp] theorem isLocked_unlock (d : Disk) (id other : FileId) :
    (d.unlock id).isLocked other = (other != id && d.isLocked other) := by
  rw [Bool.eq_iff_iff]; simp [unlock, isLocked, and_comm]

end Disk

end Emitter
