import ExportIndex.Path

/-!
# Failures

Why a file cannot be read, why a text is rejected, and how failures are worded.
-/

namespace ExportIndex

/-- Why a file cannot be read. -/
inductive ReadFailure where
  /-- The file is not among those held in memory. -/
  | notInMemory
  | missing
  | isDirectory
  /-- The path passes through a file as if it were a directory. -/
  | notADirectory
  /-- Any other cause, in the words of whoever reports it. -/
  | other (reason : String)
  deriving DecidableEq

def ReadFailure.message : ReadFailure → String
  | notInMemory => "not in memory"
  | missing => "No such file or directory (os error 2)"
  | isDirectory => "Is a directory (os error 21)"
  | notADirectory => "Not a directory (os error 20)"
  | other reason => reason

/-- A rejected place in a source text. -/
structure Diagnostic where
  file : String
  line : Nat
  column : Nat
  detail : String
  deriving DecidableEq

def Diagnostic.message (d : Diagnostic) : String :=
  d.file ++ ":" ++ d.line.repr ++ ":" ++ d.column.repr ++ ": " ++ d.detail

/-- Why a file does not become part of an index. -/
inductive Failure where
  | parse (diagnostic : Diagnostic)
  | read (path : Path) (cause : ReadFailure)
  | internal (reason : String)
  deriving DecidableEq

def Failure.message : Failure → String
  | parse diagnostic => "Parse error: " ++ diagnostic.message
  | read path cause => "IO error reading " ++ path.text ++ ": " ++ cause.message
  | internal reason => "Internal error: " ++ reason

/-- Why a build publishes nothing. -/
inductive BuildError where
  /-- The build ends with a failure, which it reports. -/
  | failed (failure : Failure)
  /-- The build is broken off and reports nothing. -/
  | aborted
  deriving DecidableEq

end ExportIndex
