import ExportIndex.Index

/-!
# Where documents come from

A workspace keeps documents in memory under their paths. A volume is a tree of directories, read as
a file system reads it.
-/

namespace ExportIndex

/-- Documents kept in memory. Paths with the same components name the same document. -/
abbrev Workspace := Registry (List Path.Component) Document

namespace Workspace

def holds (w : Workspace) (path : Path) : Bool := w.contains path.components

/-- Keep a document under a path, in place of one that is there. -/
def write (w : Workspace) (path : Path) (document : Document) : Workspace :=
  w.insert path.components document

def remove (w : Workspace) (path : Path) : Workspace := w.erase path.components

def reader (w : Workspace) : Reader := fun path =>
  match w.get? path.components with
  | some document => .ok document
  | none => .error .notInMemory

end Workspace

/-- A file or a directory with its entries. -/
inductive Volume where
  | file (document : Document)
  | directory (entries : List (String × Volume))

namespace Volume

/-- The entry of a name in a directory. -/
def entry? (name : String) : Volume → Except ReadFailure Volume
  | file _ => .error .notADirectory
  | directory entries =>
    match entries.lookup name with
    | some inner => .ok inner
    | none => .error .missing

/-- Follow the pieces between the slashes of a path. The volumes passed on the way, innermost
first, are where `..` leads back to. -/
def walk (here : Volume) (above : List Volume) : List (List Char) → Except ReadFailure Volume
  | [] => .ok here
  | piece :: rest =>
    if piece = [] ∨ piece = ['.'] then
      match here with
      | file _ => .error .notADirectory
      | directory _ => walk here above rest
    else if piece = ['.', '.'] then
      match here, above with
      | file _, _ => .error .notADirectory
      | directory _, [] => walk here [] rest
      | directory _, parent :: more => walk parent more rest
    else
      match here.entry? (String.ofList piece) with
      | .ok inner => walk inner (here :: above) rest
      | .error failure => .error failure

/-- Where a path starts: at the top if it has a leading slash, and else in an empty directory below
the top. -/
def start (v : Volume) (path : Path) : Volume × List Volume :=
  if path.text.toList.head? = some '/' then (v, []) else (directory [], [v])

/-- Read a document from a volume. An empty path leads nowhere. -/
def reader (v : Volume) : Reader := fun path =>
  if path.text = "" then .error .missing
  else
    match walk (v.start path).1 (v.start path).2 (path.text.toList.splitOn '/') with
    | .ok (file document) => .ok document
    | .ok (directory _) => .error .isDirectory
    | .error failure => .error failure

def emptyDocument : Document :=
  ⟨"", { kind := "program", named := true, missing := false, span := ⟨0, 0⟩, fields := [],
         children := [] }⟩

/-- A volume that holds nothing but the null device. -/
def bare : Volume := directory [("dev", directory [("null", file emptyDocument)])]

end Volume

end ExportIndex
