import ExportIndex.Json.Linkage
import ExportIndex.Resource

/-!
# Resources as JSON

A resource is a record with its parts as arrays. The marks `exported` and `ambient` may be absent
from an object, and usages that are listed twice are kept once.
-/

namespace ExportIndex

def ResourceKind.ofWord? : String → Option ResourceKind
  | "file" => some file
  | "namespace" => some namespaceBlock
  | "module" => some moduleBlock
  | _ => none

def ResourceKind.ofJson? (j : Json) : Option ResourceKind := (j.word? .outside).bind ofWord?

def Path.ofJson? (j : Json) : Option Path := j.text?.map Path.mk

def NameSet.ofJson? (j : Json) : Option NameSet := (j.list? Json.text?).map NameSet.ofList

namespace Resource

def toJson (r : Resource) : Json :=
  .ofFields
    [("kind", some (.text r.kind.word)),
      ("name", r.name?.map .text),
      ("file_path", r.filePath?.map fun path => .text path.text),
      ("root_path", r.rootPath?.map fun path => .text path.text),
      ("exported", some (.bool r.exported)),
      ("ambient", some (.bool r.ambient)),
      ("declarations", some (.array (r.declarations.map Declaration.toJson))),
      ("imports", some (.array (r.imports.map Import.toJson))),
      ("exports", some (.array (r.exports.map Export.toJson))),
      ("usages", some (.ofTexts r.usages.toList)),
      ("resources", some (.array (r.resources.map fun nested => nested.toJson))),
      ("location", r.span?.map Span.toJson)]
termination_by r
decreasing_by exact sizeOf_nested ‹_›

def fieldNames : List String :=
  ["kind", "name", "file_path", "root_path", "exported", "ambient", "declarations", "imports",
    "exports", "usages", "resources", "location"]

def ofJson? (j : Json) : Option Resource :=
  match _hrecord : j.record? fieldNames with
  | none => none
  | some record => do
    let kind ← record.required? "kind" ResourceKind.ofJson?
    let name? ← record.optional? "name" Json.text?
    let filePath? ← record.optional? "file_path" Path.ofJson?
    let rootPath? ← record.optional? "root_path" Path.ofJson?
    let exported ← record.withDefault? "exported" false Json.bool?
    let ambient ← record.withDefault? "ambient" false Json.bool?
    let declarations ← record.required? "declarations" (Json.list? Declaration.ofJson?)
    let imports ← record.required? "imports" (Json.list? Import.ofJson?)
    let exports ← record.required? "exports" (Json.list? Export.ofJson?)
    let usages ← record.required? "usages" NameSet.ofJson?
    let span? ← record.optional? "location" Span.ofJson?
    match _hlist : record.get? "resources" with
    | none => none
    | some list =>
      match _hitems : list.items? with
      | none => none
      | some items =>
        let resources ← items.attach.mapM fun item => ofJson? item.1
        return { kind, name?, filePath?, rootPath?, exported, ambient, declarations, imports,
                 exports, usages, resources, span? }
termination_by j
decreasing_by
  exact Nat.lt_trans (Json.sizeOf_of_mem_items? _hitems item.2)
    (Json.sizeOf_of_get?_record? _hrecord _hlist)

end Resource

end ExportIndex
