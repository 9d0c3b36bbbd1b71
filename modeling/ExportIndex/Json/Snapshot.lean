import ExportIndex.Json.Resource
import ExportIndex.Snapshot

/-!
# Snapshots as JSON

A snapshot is written as one object, with the entries of each registry as fields.
-/

namespace ExportIndex

def Registry.toJson (write : α → Json) (r : Registry String α) : Json :=
  .object (r.entries.map fun entry => (entry.1, write entry.2))

def DeclarationInfo.toJson (info : DeclarationInfo) : Json :=
  .object
    [("declaration", info.declaration.toJson),
      ("module", .text info.provider),
      ("origin", .text info.origin)]

def AssignedValue.toJson (value : AssignedValue) : Json :=
  .object
    [("name", .text value.name),
      ("declarations", .array (value.declarations.map Declaration.toJson)),
      ("resources", .array (value.resources.map Resource.toJson))]

def Snapshot.toJson (s : Snapshot) : Json :=
  .object
    [("parsed_resources", s.resources.toJson Resource.toJson),
      ("index", s.index.toJson fun infos => .array (infos.map DeclarationInfo.toJson)),
      ("defaults", s.defaults.toJson DeclarationInfo.toJson),
      ("assigned", s.assigned.toJson AssignedValue.toJson),
      ("conflicts", .ofTexts s.conflicts)]

end ExportIndex
