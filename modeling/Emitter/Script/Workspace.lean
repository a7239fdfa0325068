import Emitter.Options.Toml
import Emitter.Script.Bench

/-! A workspace of named writers, sessions, reserved files and registries over one disk, and the
steps that change it. -/

namespace Emitter.Script

structure Workspace where
  disk : Disk
  handles : Table Handle := []
  outputs : Table Output := []
  sessions : Table Session := []
  registries : Table Registry := []
  tokens : Table Token := []

/-- Where the options of a session come from. -/
inductive Source where
  | given (options : SessionOptions)
  | file (path : Path)

inductive Step where
  | act (writer : String) (act : Act)
  | writeFile (path : Path) (bytes : Bytes)
  | makeFolder (path : Path)
  | list
  | reserve (output : String) (path : Path)
  | commit (output text : String) (format : FileFormat)
  | release (output : String)
  | create (writer : String) (path : Path) (dialect : Dialect) (settings : Settings)
  | drop (writer : String)
  | newRegistry (registry : String) (builtins : Bool)
  | register (registry : String) (kind : Option String) (dialect : Dialect)
  | knows (registry kind : String)
  | createByKind (registry writer kind : String) (path : Path) (settings : Settings)
  | startSession (session : String) (source : Source) (registry : Option String)
  | loadOptions (path : Path)
  | sessionOptions (session : String)
  | sessionRegister (session : String) (kind : Option String) (dialect : Dialect)
  | openDialect (session writer request : String) (dialect : Dialect)
  | openKind (session writer kind request : String)
  | filesWritten (session : String)
  | finishSession (session : String)
  | dropSession (session : String)

/-- A step as it shows in the log: the entries of an act, or one reply. -/
inductive Outcome where
  | entries (entries : List Entry)
  | reply (reply : Reply)

namespace Workspace

/-- A new writer under a name; the one that had the name is dropped after it. -/
def putWriter (ws : Workspace) (name : String) (writer : Writer) (byKind : Bool) : Workspace :=
  let disk := match ws.handles.get? name with
    | some old => old.writer.drop ws.disk
    | none => ws.disk
  { ws with disk, handles := ws.handles.put name { writer, byKind } }

def putOutput (ws : Workspace) (name : String) (output : Output) : Workspace :=
  let disk := match ws.outputs.get? name with
    | some old => old.release ws.disk
    | none => ws.disk
  { ws with disk, outputs := ws.outputs.put name output }

def putSession (ws : Workspace) (name : String) (session : Session) : Workspace :=
  let disk := match ws.sessions.get? name with
    | some old => (old.finish ws.disk).2
    | none => ws.disk
  { ws with disk, sessions := ws.sessions.put name session }

/-- A writer that was to be opened, under a name if it was. -/
def receive (ws : Workspace) (name : String) (byKind : Bool) :
    Except Error Writer → Reply × Workspace
  | .ok w => (.text w.path.text, ws.putWriter name w byKind)
  | .error e => (.failed e, ws)

def runAct (ws : Workspace) (name : String) (act : Act) : Outcome × Workspace :=
  match ws.handles.get? name with
  | none => (.reply (.missing .writer), ws)
  | some handle =>
    let (entries, _, b) := Bench.run ⟨handle, ws.disk, ws.tokens⟩ act
    (.entries entries,
      { ws with disk := b.disk, tokens := b.tokens, handles := ws.handles.put name b.handle })

def registered (r : Registry) (kind : Option String) (dialect : Dialect) : Registry :=
  match kind with
  | some kind => r.register kind (.ofDialect dialect)
  | none => r.registerDialect dialect

def optionsOf (ws : Workspace) : Source → Except Error SessionOptions
  | .given options => .ok options
  | .file path => SessionOptions.load path ws.disk

/-- A registry that is named moves into the session. -/
def startSession (ws : Workspace) (name : String) (source : Source) (registry : Option String) :
    Reply × Workspace :=
  match ws.optionsOf source with
  | .error e => (.failed e, ws)
  | .ok options =>
    match registry with
    | none =>
      let session := Session.start options .builtins ws.disk
      (.text session.base.text, ws.putSession name session)
    | some r =>
      match ws.registries.get? r with
      | none => (.missing .registry, ws)
      | some known =>
        let session := Session.start options known ws.disk
        (.text session.base.text,
          { ws with registries := ws.registries.erase r }.putSession name session)

/-- Opens a writer through a session. -/
def openThrough (ws : Workspace) (session writer : String) (byKind : Bool)
    (opens : Session → Disk → Except Error Writer × Session × Disk) : Reply × Workspace :=
  match ws.sessions.get? session with
  | none => (.missing .session, ws)
  | some s =>
    let (result, s, disk) := opens s ws.disk
    { ws with disk, sessions := ws.sessions.put session s }.receive writer byKind result

def withSession (ws : Workspace) (name : String) (f : Session → Reply × Workspace) :
    Reply × Workspace :=
  match ws.sessions.get? name with
  | some s => f s
  | none => (.missing .session, ws)

def withRegistry (ws : Workspace) (name : String) (f : Registry → Reply × Workspace) :
    Reply × Workspace :=
  match ws.registries.get? name with
  | some r => f r
  | none => (.missing .registry, ws)

def commit (ws : Workspace) (name text : String) (format : FileFormat) : Reply × Workspace :=
  match ws.outputs.get? name with
  | none => (.missing .output, ws)
  | some o =>
    let (result, o, disk) := o.commit text format ws.disk
    (.committed result o.isCommitted, { ws with disk, outputs := ws.outputs.put name o })

/-- A step that is no act on a writer. -/
def answer (ws : Workspace) : Step → Reply × Workspace
  | .act .. => (.notAvailable, ws)
  | .writeFile path bytes => (.nothing, { ws with disk := ws.disk.writeFile path bytes })
  | .makeFolder path => (.nothing, { ws with disk := (ws.disk.makeFolders path).2 })
  | .list => (.tree ws.disk.tree, ws)
  | .reserve name path =>
    match Output.reserve path ws.disk with
    | (.ok o, disk) => (.text o.path.text, { ws with disk }.putOutput name o)
    | (.error e, disk) => (.failed e, { ws with disk })
  | .commit name text format => ws.commit name text format
  | .release name =>
    match ws.outputs.get? name with
    | some o =>
      (.flag true, { ws with disk := o.release ws.disk, outputs := ws.outputs.erase name })
    | none => (.flag false, ws)
  | .create name path dialect settings =>
    let (result, disk) := Writer.create path settings dialect ws.disk
    { ws with disk }.receive name false result
  | .drop name =>
    match ws.handles.get? name with
    | some h =>
      (.flag true, { ws with disk := h.writer.drop ws.disk, handles := ws.handles.erase name })
    | none => (.flag false, ws)
  | .newRegistry name builtins =>
    let r : Registry := if builtins then .builtins else {}
    (.registry r, { ws with registries := ws.registries.put name r })
  | .register name kind dialect =>
    ws.withRegistry name fun r =>
      let r := registered r kind dialect
      (.registry r, { ws with registries := ws.registries.put name r })
  | .knows name kind => ws.withRegistry name fun r => (.flag (r.contains kind), ws)
  | .createByKind name writer kind path settings =>
    ws.withRegistry name fun r =>
      let (result, disk) := r.create kind path settings ws.disk
      { ws with disk }.receive writer true result
  | .startSession name source registry => ws.startSession name source registry
  | .loadOptions path =>
    match SessionOptions.load path ws.disk with
    | .ok options => (.options options, ws)
    | .error e => (.failed e, ws)
  | .sessionOptions name => ws.withSession name fun s => (.options s.options, ws)
  | .sessionRegister name kind dialect =>
    ws.withSession name fun s =>
      let r := registered s.registry kind dialect
      (.registry r, { ws with sessions := ws.sessions.put name { s with registry := r } })
  | .openDialect name writer request dialect =>
    ws.openThrough name writer false (·.openDialect request dialect)
  | .openKind name writer kind request =>
    ws.openThrough name writer true (·.openKind kind request)
  | .filesWritten name => ws.withSession name fun s => (.paths s.written, ws)
  | .finishSession name =>
    ws.withSession name fun s =>
      let (result, disk) := s.finish ws.disk
      (.ofUnit result, { ws with disk, sessions := ws.sessions.erase name })
  | .dropSession name =>
    match ws.sessions.get? name with
    | some s =>
      (.flag true, { ws with disk := (s.finish ws.disk).2, sessions := ws.sessions.erase name })
    | none => (.flag false, ws)

def step (ws : Workspace) : Step → Outcome × Workspace
  | .act name act => ws.runAct name act
  | other =>
    let (reply, ws) := ws.answer other
    (.reply reply, ws)

def steps (ws : Workspace) : List Step → List Outcome × Workspace
  | [] => ([], ws)
  | s :: rest =>
    let (outcome, ws) := ws.step s
    let (outcomes, ws) := ws.steps rest
    (outcome :: outcomes, ws)

/-- Drops all that is left: writers, then reserved files, then sessions, each by name. -/
def close (ws : Workspace) : Disk :=
  let disk := ws.handles.sorted.foldl (fun d h => h.writer.drop d) ws.disk
  let disk := ws.outputs.sorted.foldl (fun d o => o.release d) disk
  ws.sessions.sorted.foldl (fun d s => (s.finish d).2) disk

end Workspace

/-- Runs the steps in an empty working folder; gives the log and what is on the disk at the end. -/
def run (working : Path) (steps : List Step) : List Outcome × List (String × Disk.Shown) :=
  let (outcomes, ws) := Workspace.steps { disk := .empty working } steps
  (outcomes, ws.close.tree)

end Emitter.Script
