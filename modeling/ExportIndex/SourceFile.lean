import ExportIndex.Config
import ExportIndex.Rejection
import ExportIndex.Usage

/-!
# Source files

From a document to the resource of the file that holds it.
-/

namespace ExportIndex

/-- The variants of the language that a file may be written in. -/
inductive Dialect where
  | typescript
  | tsx
  deriving DecidableEq

/-- The dialect of a file, by its extension. -/
def Path.dialect (path : Path) : Dialect :=
  match path.extension? with
  | some "tsx" | some "jsx" => .tsx
  | _ => .typescript

/-- The resource of a file before its text is read. -/
def Resource.ofFile (file root : Path) : Resource where
  kind := .file
  filePath? := some file
  rootPath? := some root

namespace Document

/-- What a document declares, imports, exports and nests, with the owners of its usages. -/
def extraction (document : Document) (file root : Path) : Extraction :=
  (Site.ofRoot document.root).extract document.text (.ofFile file root) false

def toResource (document : Document) (file root : Path) : Resource :=
  (document.extraction file root).withUsages document.text (.ofRoot document.root)

/-- Read a document into a resource, unless it is refused. -/
def parse (document : Document) (config : ParserConfig) (file root : Path) :
    Except Failure Resource :=
  match if config.rejectsFaults then document.diagnostic? file.text else none with
  | some diagnostic => .error (.parse diagnostic)
  | none => .ok (document.toResource file root)

/-- The names that a document uses, when no resource but the file itself owns them. -/
def usedNames (document : Document) : NameSet :=
  .ofList (((Site.ofRoot document.root).uses document.text).map (·.node.text document.text))

end Document

end ExportIndex
