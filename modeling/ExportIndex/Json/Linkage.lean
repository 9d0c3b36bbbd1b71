import ExportIndex.Json.Declaration
import ExportIndex.Linkage

/-!
# Imports and exports as JSON

Each statement is a tagged record.
-/

namespace ExportIndex

def SymbolSpecifier.toJson (s : SymbolSpecifier) : Json :=
  .ofFields [("name", some (.text s.name)), ("alias", s.rename?.map .text)]

def SymbolSpecifier.ofJson? (j : Json) : Option SymbolSpecifier := do
  let record ← j.record? ["name", "alias"]
  let name ← record.required? "name" Json.text?
  let rename? ← record.optional? "alias" Json.text?
  return { name, rename? }

def AssignedTarget.toJson : AssignedTarget → Json
  | declaration index => .object [("kind", .text "declaration"), ("index", .natural index)]
  | resource index => .object [("kind", .text "resource"), ("index", .natural index)]

/-- The target of a kind at a position. -/
def AssignedTarget.ofKind? (kind : String) (index : Nat) : Option AssignedTarget :=
  match kind with
  | "declaration" => some (declaration index)
  | "resource" => some (resource index)
  | _ => none

/-- Read a target of an `export =`: an object with a word and a position, or an array of a tag and
a position. -/
def AssignedTarget.ofJson? : Json → Option AssignedTarget
  | .array [tag, index] => do
    let kind ← tag.tag? .inside ["declaration", "resource"]
    ofKind? kind (← index.natural?)
  | j => do
    let kind ← j.required? "kind" (Json.word? .inside)
    ofKind? kind (← j.required? "index" Json.natural?)

def Import.toJson : Import → Json
  | bare library span =>
    .object [("kind", .text "string"), ("library_name", .text library), ("location", span.toJson)]
  | named library specifiers defaultLocal? isTypeOnly span =>
    .ofFields
      [("kind", some (.text "named")),
        ("library_name", some (.text library)),
        ("specifiers", some (.array (specifiers.map SymbolSpecifier.toJson))),
        ("default_alias", defaultLocal?.map .text),
        ("is_type_only", some (.bool isTypeOnly)),
        ("location", some span.toJson)]
  | star library localName isTypeOnly span =>
    .object
      [("kind", .text "namespace"),
        ("library_name", .text library),
        ("alias", .text localName),
        ("is_type_only", .bool isTypeOnly),
        ("location", span.toJson)]
  | ofDefault library localName span =>
    .object
      [("kind", .text "default"),
        ("library_name", .text library),
        ("alias", .text localName),
        ("location", span.toJson)]
  | required library localName span =>
    .object
      [("kind", .text "external_module"),
        ("library_name", .text library),
        ("alias", .text localName),
        ("location", span.toJson)]

def Import.ofJson? (j : Json) : Option Import := do
  let (tag, content) ← j.tagged?
  match ← tag.tag? .outside [] with
  | "string" =>
    let record ← content.record? ["library_name", "location"]
    let library ← record.required? "library_name" Json.text?
    let span ← record.required? "location" Span.ofJson?
    return bare library span
  | "named" =>
    let record ← content.record?
      ["library_name", "specifiers", "default_alias", "is_type_only", "location"]
    let library ← record.required? "library_name" Json.text?
    let specifiers ← record.required? "specifiers" (Json.list? SymbolSpecifier.ofJson?)
    let defaultLocal? ← record.optional? "default_alias" Json.text?
    let isTypeOnly ← record.required? "is_type_only" Json.bool?
    let span ← record.required? "location" Span.ofJson?
    return named library specifiers defaultLocal? isTypeOnly span
  | "namespace" =>
    let record ← content.record? ["library_name", "alias", "is_type_only", "location"]
    let library ← record.required? "library_name" Json.text?
    let localName ← record.required? "alias" Json.text?
    let isTypeOnly ← record.required? "is_type_only" Json.bool?
    let span ← record.required? "location" Span.ofJson?
    return star library localName isTypeOnly span
  | "default" =>
    let record ← content.record? ["library_name", "alias", "location"]
    let library ← record.required? "library_name" Json.text?
    let localName ← record.required? "alias" Json.text?
    let span ← record.required? "location" Span.ofJson?
    return ofDefault library localName span
  | "external_module" =>
    let record ← content.record? ["library_name", "alias", "location"]
    let library ← record.required? "library_name" Json.text?
    let localName ← record.required? "alias" Json.text?
    let span ← record.required? "location" Span.ofJson?
    return required library localName span
  | _ => none

def Export.toJson : Export → Json
  | all source rename? span =>
    .ofFields
      [("kind", some (.text "all")),
        ("from", some (.text source)),
        ("alias", rename?.map .text),
        ("location", some span.toJson)]
  | named source? specifiers isTypeOnly span =>
    .ofFields
      [("kind", some (.text "named")),
        ("from", source?.map .text),
        ("specifiers", some (.array (specifiers.map SymbolSpecifier.toJson))),
        ("is_type_only", some (.bool isTypeOnly)),
        ("location", some span.toJson)]
  | assigned name targets span =>
    .object
      [("kind", .text "assigned"),
        ("name", .text name),
        ("targets", .array (targets.map AssignedTarget.toJson)),
        ("location", span.toJson)]

def Export.ofJson? (j : Json) : Option Export := do
  let (tag, content) ← j.tagged?
  match ← tag.tag? .outside [] with
  | "all" =>
    let record ← content.record? ["from", "alias", "location"]
    let source ← record.required? "from" Json.text?
    let rename? ← record.optional? "alias" Json.text?
    let span ← record.required? "location" Span.ofJson?
    return all source rename? span
  | "named" =>
    let record ← content.record? ["from", "specifiers", "is_type_only", "location"]
    let source? ← record.optional? "from" Json.text?
    let specifiers ← record.required? "specifiers" (Json.list? SymbolSpecifier.ofJson?)
    let isTypeOnly ← record.required? "is_type_only" Json.bool?
    let span ← record.required? "location" Span.ofJson?
    return named source? specifiers isTypeOnly span
  | "assigned" =>
    let record ← content.record? ["name", "targets", "location"]
    let name ← record.required? "name" Json.text?
    let targets ← record.required? "targets" (Json.list? AssignedTarget.ofJson?)
    let span ← record.required? "location" Span.ofJson?
    return assigned name targets span
  | _ => none

end ExportIndex
