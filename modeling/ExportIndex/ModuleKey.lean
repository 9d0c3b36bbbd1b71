import ExportIndex.Path
import ExportIndex.Text.Affix

/-!
# Module keys

A module is known under its key: the segments of its path below the root, with a leading slash and
without the source extension. A file below `node_modules` is known under the name it is imported
by, such as `lodash` or `@scope/package/part`.
-/

namespace ExportIndex

/-- The name under which a module is known. -/
abbrev ModuleKey := String

/-- The extensions of source files. A longer one stands before its own ending. -/
def sourceExtensions : List String :=
  [".d.ts", ".d.mts", ".d.cts", ".tsx", ".ts", ".mts", ".cts", ".jsx", ".js", ".mjs", ".cjs"]

def declarationExtensions : List String := [".d.ts", ".d.mts", ".d.cts"]

/-- A text without the first source extension that it ends in. -/
def stripSourceExtension (text : String) : String :=
  match sourceExtensions.findSome? fun ext => Text.beforeEnding? ext.toList text.toList with
  | some before => String.ofList before
  | none => text

def Path.isDeclarationFile (path : Path) : Bool :=
  declarationExtensions.any fun ext =>
    ext.toList.isSuffixOf (path.fileName?.getD "").toList

/-- The items after the last occurrence of a mark. -/
def afterLastItem? (mark : String) : List String → Option (List String)
  | [] => none
  | item :: rest =>
    match afterLastItem? mark rest with
    | some after => some after
    | none => if item = mark then some rest else none

/-- The name of the package that the segments below `node_modules` start with, and the segments
inside the package. Typings in the scope `@types` belong to the package they describe, whose own
scope is written before a double underscore. -/
def packageName? : List String → Option (String × List String)
  | [] => none
  | [only] => some (stripSourceExtension only, [])
  | first :: second :: inside =>
    if first = "@types" then
      match Text.cutAt? ['_', '_'] second.toList with
      | some (scope, name) => some (String.ofList ('@' :: scope ++ '/' :: name), inside)
      | none => some (stripSourceExtension second, inside)
    else if first.toList.head? = some '@' then some (first ++ "/" ++ second, inside)
    else some (stripSourceExtension first, second :: inside)

/-- The path inside a package under which a file is imported: without its extension and without a
final `index`. -/
def pathInPackage (inside : List String) : String :=
  let path := stripSourceExtension ("/".intercalate inside)
  match Text.beforeEnding? "/index".toList path.toList with
  | some before => String.ofList before
  | none => path

/-- The name under which a package file is imported. -/
def libraryNameOf (package : String) (inside : List String) : String :=
  let path := pathInPackage inside
  if path = "" ∨ path = "index" then package else package ++ "/" ++ path

/-- The name under which a file below `node_modules` is imported. -/
def nodeLibraryName? (file : Path) : Option String :=
  (afterLastItem? "node_modules" file.segments).bind fun segments =>
    (packageName? segments).map fun (package, inside) => libraryNameOf package inside

/-- The key of a project file with some segments below the root. -/
def projectKey (segments : List String) : ModuleKey :=
  "/" ++ stripSourceExtension ("/".intercalate segments)

def moduleKey (file root : Path) : ModuleKey :=
  match nodeLibraryName? file with
  | some name => name
  | none => projectKey (Path.segmentsOf (file.componentsBelow root))

/-- The text that a module is imported by: its key without a final `/index`. -/
def importPath (key : ModuleKey) : String :=
  match Text.beforeEnding? "/index".toList key.toList with
  | some [] => "/"
  | some before => String.ofList before
  | none => key

end ExportIndex
