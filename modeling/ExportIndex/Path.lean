/-!
# File paths

A path keeps the text in which it was given and is compared by its components. Repeated slashes,
trailing slashes and inner `.` components do not count; `..` is kept.
-/

namespace ExportIndex

/-- A file path, in the text in which it was given. -/
structure Path where
  text : String
  deriving DecidableEq, Inhabited

namespace Path

inductive Component where
  /-- The leading slash of an absolute path. -/
  | root
  /-- A `.` at the start of a relative path. -/
  | current
  | parent
  | name (text : String)
  deriving DecidableEq

/-- The component that a piece of text between slashes stands for after the start of a path. -/
def Component.ofPiece? (piece : List Char) : Option Component :=
  if piece = [] ∨ piece = ['.'] then none
  else if piece = ['.', '.'] then some .parent
  else some (.name (String.ofList piece))

/-- The component that stands before all pieces of a path: a leading slash, or the leading `.` of
a relative path. -/
def leading? (text : List Char) : Option Component :=
  if text.head? = some '/' then some .root
  else if (text.splitOn '/').head? = some ['.'] then some .current
  else none

def components (path : Path) : List Component :=
  (leading? path.text.toList).toList ++ (path.text.toList.splitOn '/').filterMap Component.ofPiece?

/-- Whether two paths have the same components. -/
def same (first second : Path) : Bool := first.components = second.components

/-- The text of a component that is a name or a `..`. -/
def Component.segment? : Component → Option String
  | .name text => some text
  | .parent => some ".."
  | _ => none

def segmentsOf (components : List Component) : List String :=
  components.filterMap Component.segment?

/-- The names and `..` steps of a path. -/
def segments (path : Path) : List String := segmentsOf path.components

/-- What follows a list of leading components, if a list starts with them. -/
def stripLeading? : List Component → List Component → Option (List Component)
  | [], rest => some rest
  | _ :: _, [] => none
  | lead :: leads, c :: rest => if lead = c then stripLeading? leads rest else none

/-- The components of a path below a directory; all of them if the path is not below it. -/
def componentsBelow (path directory : Path) : List Component :=
  (stripLeading? directory.components path.components).getD path.components

/-- The name at the end of a path, if the path ends in a name. -/
def fileName? (path : Path) : Option String :=
  match path.components.getLast? with
  | some (.name text) => some text
  | _ => none

/-- The part of a file name after its last dot. A dot at the start of the name does not count. -/
def extensionOf? (fileName : List Char) : Option (List Char) :=
  match fileName.splitOn '.' with
  | [] | [_] => none
  | first :: rest => if first = [] ∧ rest.length = 1 then none else rest.getLast?

/-- The extension of the file that a path names. -/
def extension? (path : Path) : Option String :=
  path.fileName?.bind fun name => (extensionOf? name.toList).map String.ofList

end Path

end ExportIndex
