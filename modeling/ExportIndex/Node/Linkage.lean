import ExportIndex.Document
import ExportIndex.Linkage

/-!
# Import and export statements

What import statements bind, and what export statements without a declaration offer.
-/

namespace ExportIndex

namespace Node

/-- The entries of an import or export clause. -/
def specifiers (source : String) (kind : String) (clause : Node) : List SymbolSpecifier :=
  (clause.childrenOfKind [kind]).filterMap fun entry =>
    (entry.fieldText? source "name").map fun name =>
      ⟨name, entry.fieldText? source "alias"⟩

/-- The import that `import x = require("m")` makes. -/
def requireImport? (source : String) (span : Span) (clause : Node) : Option Import :=
  match clause.childOfKind? "identifier", clause.fieldText? source "source" with
  | some name, some library => some (.required library (name.text source) span)
  | _, _ => none

/-- The imports that a clause between `import` and `from` makes. A default binding beside
`* as ns` is an import of its own. -/
def clauseImports (source : String) (library : String) (isTypeOnly : Bool) (span : Span)
    (clause : Node) : List Import :=
  let defaultLocal? := (clause.childOfKind? "identifier").map (text source)
  let starLocal? := (clause.childOfKind? "namespace_import").bind fun star =>
    (star.childOfKind? "identifier").map (text source)
  match starLocal?, clause.childOfKind? "named_imports" with
  | some starLocal, _ =>
    defaultLocal?.toList.map (Import.ofDefault library · span) ++
      [.star library starLocal isTypeOnly span]
  | none, some entries =>
    [.named library (entries.specifiers source "import_specifier") defaultLocal? isTypeOnly span]
  | none, none => defaultLocal?.toList.map (Import.ofDefault library · span)

def imports (source : String) (node : Node) : List Import :=
  match node.childOfKind? "import_require_clause" with
  | some clause => (clause.requireImport? source node.span).toList
  | none =>
    match node.fieldText? source "source" with
    | none => []
    | some library =>
      match node.childOfKind? "import_clause" with
      | none => [.bare library node.span]
      | some clause => clause.clauseImports source library (node.hasToken "type") node.span

/-- The export that `export = name` makes. What it points at is found when the whole resource is
known. -/
def assignedExport? (source : String) (node : Node) : Option Export :=
  ((node.namedChildren.filter fun child => child.kind ≠ "comment").getLast?).map fun target =>
    .assigned (target.text source) [] node.span

/-- The new name in `export * as ns`. -/
def starName? (source : String) (node : Node) : Option String :=
  ((node.childOfKind? "namespace_export").bind (·.namedChildren.head?)).map fun name =>
    Text.unquote (name.text source)

/-- The export that an export statement with a clause or a star makes. -/
def clauseExport? (source : String) (node : Node) : Option Export :=
  match node.childOfKind? "export_clause" with
  | some clause =>
    some (.named (node.fieldText? source "source") (clause.specifiers source "export_specifier")
      (node.hasToken "type") node.span)
  | none =>
    (node.fieldText? source "source").bind fun library =>
      if (node.starName? source).isSome || node.hasToken "*" then
        some (.all library (node.starName? source) node.span)
      else none

/-- The export that an export statement without a declaration or value makes. A statement
`export as namespace X` makes none. -/
def export? (source : String) (node : Node) : Option Export :=
  if node.hasToken "=" then node.assignedExport? source
  else if node.hasToken "namespace" && !node.hasToken "*" then none
  else node.clauseExport? source

end Node

end ExportIndex
