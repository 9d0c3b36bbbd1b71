import ExportIndex.Workspace

/-!
# Sessions

A session is an index together with the files that its builds read and the snapshots that were taken
from it. Files come and go between the builds.
-/

namespace ExportIndex

/-- An index with the files that its builds read. -/
structure Session where
  index : Index
  workspace : Workspace := .empty
  /-- Where files are read from, if it is not the workspace. -/
  volume? : Option Volume := none
  /-- The snapshots that were taken so far, in order. -/
  held : List Snapshot := []

namespace Session

/-- A session with a new index. -/
def ofConfig (config : Config) (workspace : Workspace) (volume? : Option Volume) : Session :=
  { index := .ofConfig config, workspace, volume? }

/-- The reader of the builds of a session. -/
def reader (s : Session) : Reader :=
  match s.volume? with
  | some volume => volume.reader
  | none => s.workspace.reader

inductive Command where
  | write (path : Path) (document : Document)
  | remove (path : Path)
  | build (paths : List Path)
  /-- Take the current snapshot, to be read later on. -/
  | hold

/-- How a command ends. -/
inductive Reply where
  /-- A file was written or removed, and was there before or not. -/
  | done (existed : Bool)
  | held
  | built
  | failed (failure : Failure)
  /-- A build was broken off. -/
  | aborted

/-- The reply to a build that publishes nothing. -/
def Reply.ofError : BuildError → Reply
  | .failed failure => .failed failure
  | .aborted => .aborted

/-- Carry out a command. A build that publishes nothing leaves the index as it was. -/
def run (s : Session) : Command → Reply × Session
  | .write path document =>
    (.done (s.workspace.holds path), { s with workspace := s.workspace.write path document })
  | .remove path =>
    (.done (s.workspace.holds path), { s with workspace := s.workspace.remove path })
  | .build paths =>
    match s.index.build s.reader paths with
    | .ok index => (.built, { s with index })
    | .error error => (.ofError error, s)
  | .hold => (.held, { s with held := s.held ++ [s.index.snapshot] })

/-- The session after some commands, one after another. -/
def after (s : Session) (commands : List Command) : Session :=
  commands.foldl (fun s command => (s.run command).2) s

end Session

end ExportIndex
