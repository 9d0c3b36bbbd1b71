import ExportIndex.Resolution

/-!
# Snapshots

A snapshot is what a finished build offers: the resources, the union of all surfaces as an index by
name, the default exports, the values of `export =`, and the modules in conflict.
-/

namespace ExportIndex

/-- A declaration under the module that makes it importable. -/
structure DeclarationInfo where
  binding : Binding
  declaration : Declaration
  /-- The module whose surface lists the declaration. -/
  provider : ModuleKey
  /-- The module that declares it. -/
  origin : ModuleKey

namespace DeclarationInfo

/-- The text that the declaration is imported by. -/
def importPath (info : DeclarationInfo) : String := ExportIndex.importPath info.provider

/-- Whether two entries list the same item for the same module. -/
def same (first second : DeclarationInfo) : Bool :=
  first.binding = second.binding && first.provider = second.provider

end DeclarationInfo

/-- What a finished build offers. -/
structure Snapshot where
  resources : Registry ModuleKey Resource := .empty
  index : Registry String (List DeclarationInfo) := .empty
  defaults : Registry ModuleKey DeclarationInfo := .empty
  assigned : Registry ModuleKey AssignedValue := .empty
  conflicts : List ModuleKey := []

namespace Snapshot

def empty : Snapshot := {}

instance : Inhabited Snapshot := ⟨empty⟩

end Snapshot

namespace ModuleTable

/-- The item that a binding refers to. -/
def item? (table : ModuleTable) (binding : Binding) : Option Declaration :=
  (table.get? binding.origin).bind (·.item? binding.slot)

/-- The entry of a binding that the surface of a module lists. -/
def info? (table : ModuleTable) (provider : ModuleKey) (binding : Binding) :
    Option DeclarationInfo :=
  (table.item? binding).map fun declaration =>
    { binding, declaration, provider, origin := binding.origin }

/-- The entries of the named bindings of a surface, with their names. -/
def namedInfos (table : ModuleTable) (provider : ModuleKey) (surface : Surface) :
    List (String × DeclarationInfo) :=
  surface.namedOffers.filterMap fun offer =>
    (table.info? provider offer.binding).map fun info => (offer.name, info)

/-- The entry of a module that is not a file and is offered as a whole, with its name. -/
def wholeInfo? (entry : ModuleEntry) : Option (String × DeclarationInfo) :=
  match entry.whole?, entry.declaredIn? with
  | some declaration, some origin =>
    declaration.name?.map fun name =>
      (name, { binding := entry.binding .whole, declaration, provider := entry.key, origin })
  | _, _ => none

end ModuleTable

namespace Snapshot

/-- Enter an item under a name unless it is there for the same module. -/
def insertInfo (index : Registry String (List DeclarationInfo)) (entry : String × DeclarationInfo) :
    Registry String (List DeclarationInfo) :=
  index.upsert entry.1 fun
    | some infos => if infos.any (·.same entry.2) then infos else infos ++ [entry.2]
    | none => [entry.2]

/-- Put the surfaces of a table together: the named bindings module by module, and after them the
modules that are offered as a whole. -/
def assemble (table : ModuleTable) (surfaces : Surfaces) : Snapshot where
  resources := table.modules.mapValues fun _ entry => entry.resource
  index :=
    (surfaces.entries.flatMap (fun (key, surface) => table.namedInfos key surface) ++
      table.entries.filterMap ModuleTable.wholeInfo?).foldl insertInfo .empty
  defaults := .ofList (surfaces.entries.filterMap fun (key, surface) =>
    (surface.default?.bind (table.info? key)).map fun info => (key, info))
  assigned := .ofList (surfaces.entries.filterMap fun (key, surface) =>
    surface.assigned?.map fun value => (key, value))
  conflicts := (surfaces.entries.filter (·.2.conflict)).map (·.1)

def ofResources (hoists : Bool) (resources : List Resource) : Snapshot :=
  let table := ModuleTable.build hoists resources
  assemble table table.resolve

/-- Everything that is exported under a name. -/
def lookup (s : Snapshot) (name : String) : List DeclarationInfo := (s.index.get? name).getD []

/-- The names under which anything is exported. -/
def names (s : Snapshot) : List String := s.index.keys

def resource? (s : Snapshot) (key : ModuleKey) : Option Resource := s.resources.get? key

def default? (s : Snapshot) (key : ModuleKey) : Option DeclarationInfo := s.defaults.get? key

def assigned? (s : Snapshot) (key : ModuleKey) : Option AssignedValue := s.assigned.get? key

end Snapshot

end ExportIndex
