import ExportIndex.Node.Declaration
import ExportIndex.Node.Linkage
import ExportIndex.Resource

/-!
# Statements

What each statement of a file, namespace or module contributes to its resource. A nested namespace
or module is an opening: its body is read later, as a resource of its own.
-/

namespace ExportIndex

/-- A namespace or module that a statement opens. -/
structure Opening where
  /-- The site that owns what is written inside. -/
  site : Site
  kind : ResourceKind
  name : String
  exported : Bool
  ambient : Bool
  /-- The site of the body, if there is one. -/
  body? : Option Site
  /-- Whether members are exported without a mark of their own. -/
  exportsMembers : Bool

/-- The resource of an opening before its body is read. -/
def Opening.header (o : Opening) : Resource where
  kind := o.kind
  name? := some o.name
  exported := o.exported
  ambient := o.ambient
  span? := some o.site.node.span

/-- One contribution of a statement to its resource. -/
inductive Piece where
  | importing (i : Import)
  | declaring (d : Declaration)
  | exporting (e : Export)
  | opening (o : Opening)

/-- The kinds of construct that open a namespace or module. -/
def openingKinds : List String := ["internal_module", "module"]

namespace Site

/-- The opening of a namespace or module. Members of a module whose name is a string are exported
without a mark. -/
def opening? (source : String) (exported ambient : Bool) (site : Site) : Option Opening :=
  (site.node.field? "name").map fun name =>
    { site
      kind := if site.node.kind = "internal_module" then .namespaceBlock else .moduleBlock
      name := Text.unquote (name.text source)
      exported
      ambient
      body? := site.field? "body"
      exportsMembers := name.kind = "string" }

/-- The opening of a `declare global` block. -/
def globalOpening? (site : Site) : Option Opening :=
  (site.childOfKind? "statement_block").map fun body =>
    { site
      kind := .namespaceBlock
      name := "global"
      exported := false
      ambient := true
      body? := some body
      exportsMembers := true }

/-- What a construct contributes: an opening, or the declarations that it introduces. -/
def constructPieces (source : String) (exported ambient : Bool) (site : Site) : List Piece :=
  if site.node.kind ∈ openingKinds then
    (site.opening? source exported ambient).toList.map .opening
  else (site.node.declarations source exported).map .declaring

def ambientPieces (source : String) (exported : Bool) (site : Site) : List Piece :=
  if site.node.hasToken "global" then site.globalOpening?.toList.map .opening
  else
    match site.namedChildren.head? with
    | some inner => inner.constructPieces source exported true
    | none => []

/-- What the value of an `export default` statement contributes. -/
def defaultPiece (source : String) (span : Span) (value : Node) : Piece :=
  if value.kind = "identifier" then .declaring (.defaultValue (some (value.text source)) span)
  else .declaring (value.defaultExport source span)

def exportPieces (source : String) (site : Site) : List Piece :=
  match site.field? "declaration" with
  | some declaration =>
    if site.node.hasToken "default" then
      [.declaring (declaration.node.defaultExport source site.node.span)]
    else if declaration.node.kind = "ambient_declaration" then
      declaration.ambientPieces source true
    else declaration.constructPieces source true false
  | none =>
    match site.node.field? "value" with
    | some value => [defaultPiece source site.node.span value]
    | none => (site.node.export? source).toList.map .exporting

/-- What a statement contributes to its resource. -/
def pieces (source : String) (exportsMembers : Bool) (site : Site) : List Piece :=
  match site.node.kind with
  | "import_statement" => (site.node.imports source).map .importing
  | "export_statement" => site.exportPieces source
  | "expression_statement" =>
    match site.childOfKind? "internal_module" with
    | some inner => inner.constructPieces source exportsMembers false
    | none => []
  | "ambient_declaration" => site.ambientPieces source exportsMembers
  | _ => site.constructPieces source exportsMembers false

end Site

end ExportIndex
