import Emitter.Options.Basic
import Emitter.Registry
import Emitter.Session.FileLog
import Emitter.Session.FileName

/-! Sessions: writers for files under one base directory, each under a path of its own. -/

namespace Emitter

/-- The paths are in the order of opening. -/
structure Session where
  options : SessionOptions
  base : Path
  registry : Registry
  written : List Path

namespace Session

def start (options : SessionOptions) (registry : Registry) (d : Disk) : Session :=
  { options, registry
    base := Path.absolutize d.working options.baseOutputDirectory
    written := [] }

def isTaken (s : Session) (p : Path) : Bool := s.written.any (p.same ·)

/-- The path that a request asks for. -/
def requested (s : Session) (request : String) : Path :=
  FileName.fit (Path.absolutize s.base (.ofPortable request)) none

/-- The first number from `n` on whose name is free; the fuel bounds how many are tried. -/
def freeNumber (s : Session) (p : Path) : Nat → Nat → Nat
  | 0, n => n
  | fuel + 1, n => if s.isTaken (FileName.fit p (some n)) then freeNumber s p fuel (n + 1) else n

/-- The path for a request. Of one more numbers than paths are taken, one is free. -/
def pick (s : Session) (request : String) : Except Error Path :=
  let p := s.requested request
  if !s.isTaken p then .ok p
  else if s.options.autoRenameConflictingFiles then
    .ok (FileName.fit p (some (s.freeNumber p s.written.length 0)))
  else .error (.outputConflict p)

/-- A path that is there keeps its place. -/
def record (s : Session) (p : Path) : Session :=
  if s.isTaken p then s else { s with written := s.written ++ [p] }

/-- Picks the path for a request, and takes it before the file is opened. -/
def claim (s : Session) (request : String) : Except Error (Path × Session) :=
  (s.pick request).map fun p => (p, s.record p)

/-- Gives a path back. The others keep their order. -/
def release (s : Session) (p : Path) : Session :=
  { s with written := s.written.eraseP (p.same ·) }

/-- Opens a writer at the path of a request. The path is given back if it cannot be opened. -/
def openWith (s : Session) (request : String) (factory : Factory) (d : Disk) :
    Except Error Writer × Session × Disk :=
  match s.claim request with
  | .error e => (.error e, s, d)
  | .ok (p, s) =>
    match factory p s.options.settings d with
    | (.error e, d) => (.error e, s.release p, d)
    | (.ok w, d) => (.ok w, s, d)

def openDialect (s : Session) (request : String) (dialect : Dialect) (d : Disk) :
    Except Error Writer × Session × Disk :=
  s.openWith request (.ofDialect dialect) d

/-- An unknown kind takes no path. -/
def openKind (s : Session) (kind request : String) (d : Disk) :
    Except Error Writer × Session × Disk :=
  if s.registry.contains kind then s.openWith request (s.registry.create kind) d
  else (.error (.unknownWriterKind kind), s, d)

/-- Cleans up after the session before, and writes the log. -/
def finish (s : Session) (d : Disk) : Except Error Unit × Disk :=
  match if s.options.cleanStaleOutput then FileLog.clean s.base s.written d else .ok d with
  | .error e => (.error e, d)
  | .ok d => if s.options.writeFileLog then FileLog.write s.base s.written d else (.ok (), d)

end Session

end Emitter
