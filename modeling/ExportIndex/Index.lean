import ExportIndex.Snapshot
import ExportIndex.SourceFile

/-!
# The index

An index is built from a list of paths and keeps the snapshot of its last successful build. A build
reads all files, then parses them, then resolves them; the first failure of the first stage that
fails is reported. A build that is allowed to read more files at the same time than can be read is
broken off before it reads any.
-/

namespace ExportIndex

/-- How the document of a path is obtained. -/
abbrev Reader := Path → Except ReadFailure Document

namespace Reader

/-- Read a path, naming it in a failure. -/
def read (reader : Reader) (path : Path) : Except Failure Document :=
  (reader path).mapError (Failure.read path)

/-- Read a file and record what it holds. -/
def parseFile (reader : Reader) (config : ParserConfig) (file root : Path) :
    Except Failure Resource := do
  let document ← reader.read file
  document.parse config file root

/-- Read a path and keep the path beside what it holds. -/
def readPath (reader : Reader) (path : Path) : Except Failure (Path × Document) :=
  (reader.read path).map fun document => (path, document)

/-- Read all files, some of them at the same time, and at least one. -/
def readAll (reader : Reader) (maxConcurrentReads : Nat) (paths : List Path) :
    Except BuildError (List (Path × Document)) :=
  if readLimit < max maxConcurrentReads 1 then .error .aborted
  else Except.mapError .failed (paths.mapM reader.readPath)

end Reader

/-- The snapshot that a configuration gives for some files. All files are read before any is
parsed. -/
def Config.snapshot (config : Config) (reader : Reader) (paths : List Path) :
    Except BuildError Snapshot := do
  let documents ← reader.readAll config.maxConcurrentReads paths
  let resources ← Except.mapError .failed (documents.mapM fun (path, document) =>
    document.parse config.parser path config.root)
  return .ofResources config.hoistsAmbientModules resources

/-- An index with its last snapshot. -/
structure Index where
  config : Config
  snapshot : Snapshot := .empty
  ready : Bool := false

namespace Index

def ofConfig (config : Config) : Index := { config }

def build (index : Index) (reader : Reader) (paths : List Path) : Except BuildError Index :=
  (index.config.snapshot reader paths).map fun snapshot => { index with snapshot, ready := true }

end Index

end ExportIndex
