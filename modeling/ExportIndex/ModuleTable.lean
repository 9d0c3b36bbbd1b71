import ExportIndex.Graph
import ExportIndex.ModuleSpecifier
import ExportIndex.Registry
import ExportIndex.Resource

/-!
# The module table

The table holds every module of one build under its key: first the files, in the order in which
their keys first came, then the string-named modules that declaration files declare. Every module
comes with the modules that its exports and imports name. The items of a module are the things that
a name can be bound to.
-/

namespace ExportIndex

/-- A module with the resolved specifiers of its statements and the items that names can be bound
to. -/
structure ModuleEntry where
  key : ModuleKey
  resource : Resource
  /-- For each declaration, the item that is bound to its name. -/
  locals : List Declaration
  /-- For each nested resource, the item that stands for it. -/
  nested : List Declaration
  /-- For each export, the known module that it re-exports from. -/
  exportTargets : List (Option ModuleKey)
  /-- The modules offered by `export * as` statements, under the positions of the statements. -/
  starExports : Registry Nat Declaration
  /-- For each import, the known module that it imports from. -/
  importTargets : List (Option ModuleKey)
  /-- The modules bound by imports, under the positions of the statements. -/
  moduleImports : Registry Nat Declaration
  /-- The file that declares the module, if it is not a file itself. -/
  declaredIn? : Option ModuleKey
  /-- The module itself, if it is not a file and has a name to be offered by as a whole. -/
  whole? : Option Declaration

/-- A place in a module where an item stands. -/
inductive Slot where
  | declared (index : Nat)
  | nested (index : Nat)
  /-- The module offered by an `export * as` statement. -/
  | starExport (index : Nat)
  /-- The module bound by an import. -/
  | moduleImport (index : Nat)
  /-- The module itself, under the name that it is offered by as a whole. -/
  | whole
  deriving DecidableEq

namespace ModuleEntry

/-- The item that stands for a nested resource. -/
def nestedDeclaration (nested : Resource) : Declaration :=
  .ofModule
    { name := nested.name?.getD ""
      exported := nested.exported
      target := nested.name?.getD ""
      span := nested.span?.getD default }

/-- The name that an `export * as` statement gives to its target. -/
def starDeclaration? : Export × Option ModuleKey → Option Declaration
  | (.all _ (some name) span, some target) => some (.ofModule { name, exported := true, target, span })
  | _ => none

/-- The name that an import statement gives to its target as a whole. -/
def moduleDeclaration? : Import × Option ModuleKey → Option Declaration
  | (i, some target) =>
    i.moduleLocal?.map fun name => .ofModule { name, exported := true, target, span := i.span }
  | (_, none) => none

/-- The name under which a module that is not a file is offered as a whole. -/
def wholeDeclaration? (key : ModuleKey) (resource : Resource) (declaredIn? : Option ModuleKey) :
    Option Declaration :=
  if declaredIn?.isSome ∧ resource.namespaceName ≠ "" then
    some (.ofModule
      { name := resource.namespaceName
        exported := true
        target := key
        span := resource.span?.getD default })
  else none

/-- A module whose statements name some targets, with its items. -/
def ofTargets (key : ModuleKey) (resource : Resource)
    (exportTargets importTargets : List (Option ModuleKey)) (declaredIn? : Option ModuleKey) :
    ModuleEntry where
  key
  resource
  locals := resource.declarations
  nested := resource.resources.map nestedDeclaration
  exportTargets
  starExports := .ofPositions starDeclaration? (resource.exports.zip exportTargets)
  importTargets
  moduleImports := .ofPositions moduleDeclaration? (resource.imports.zip importTargets)
  declaredIn?
  whole? := wholeDeclaration? key resource declaredIn?

/-- A module whose statements are resolved against the known modules. -/
def ofResource (isKnown : ModuleKey → Bool) (declaredIn? : Option ModuleKey) (key : ModuleKey)
    (resource : Resource) : ModuleEntry :=
  ofTargets key resource
    (resource.exports.map fun e => e.source?.bind (resolveSpecifier? isKnown key))
    (resource.imports.map fun i => resolveSpecifier? isKnown key i.library) declaredIn?

/-- The items of a module are those that its statements and their targets give. -/
def Filled (entry : ModuleEntry) : Prop :=
  entry = ofTargets entry.key entry.resource entry.exportTargets entry.importTargets entry.declaredIn?

def exportTarget? (entry : ModuleEntry) (index : Nat) : Option ModuleKey :=
  entry.exportTargets[index]?.join

def importTarget? (entry : ModuleEntry) (index : Nat) : Option ModuleKey :=
  entry.importTargets[index]?.join

/-- The item at a place in a module. -/
def item? (entry : ModuleEntry) : Slot → Option Declaration
  | .declared index => entry.locals[index]?
  | .nested index => entry.nested[index]?
  | .starExport index => entry.starExports.get? index
  | .moduleImport index => entry.moduleImports.get? index
  | .whole => entry.whole?

/-- The places at which items of a module can be bound to a name by an export. -/
def slots (entry : ModuleEntry) : List Slot :=
  (List.range entry.locals.length).map Slot.declared ++
    (List.range entry.nested.length).map Slot.nested ++
    entry.starExports.keys.map Slot.starExport ++ entry.moduleImports.keys.map Slot.moduleImport

/-- The modules that the statements of a module name, exports first. -/
def targets (entry : ModuleEntry) : List ModuleKey :=
  entry.exportTargets.filterMap id ++ entry.importTargets.filterMap id

end ModuleEntry

/-- The modules of one build, each under its own key and with its own items. -/
structure ModuleTable where
  modules : Registry ModuleKey ModuleEntry
  keyed : ∀ pair ∈ modules.entries, pair.2.key = pair.1
  filled : ∀ pair ∈ modules.entries, pair.2.Filled

/-- Whether a resource is a `declare module` block that may become a module of its own. -/
def Resource.isAmbientModule (r : Resource) : Bool :=
  r.kind = .moduleBlock && r.ambient && r.name?.isSome

/-- The position of an item once some others stand before it. A position past the last of `count`
items points at none of them; it moves all the same, and at the limit of numbers it starts again
from zero. -/
def movePosition (before count index : Nat) : Nat :=
  if index < count then index + before else (index + before) % numberLimit

/-- The target of a block once another block stands before it. -/
def AssignedTarget.moveBehind (earlier block : Resource) : AssignedTarget → AssignedTarget
  | declaration index =>
    declaration (movePosition earlier.declarations.length block.declarations.length index)
  | resource index => resource (movePosition earlier.resources.length block.resources.length index)

/-- The export of a block once another block stands before it. -/
def Export.moveBehind (earlier block : Resource) : Export → Export
  | assigned name targets span =>
    assigned name (targets.map (AssignedTarget.moveBehind earlier block)) span
  | e => e

/-- The block that joins a block with a later one of the same name. -/
def Resource.merge (r later : Resource) : Resource :=
  { r with
    declarations := r.declarations ++ later.declarations
    imports := r.imports ++ later.imports
    exports := r.exports ++ later.exports.map (Export.moveBehind r later)
    resources := r.resources ++ later.resources
    usages := r.usages.union later.usages }

def Resource.isTypings (r : Resource) : Bool := r.filePath?.any Path.isDeclarationFile

/-- A module that is not a file, with the file that declares it first. -/
structure AmbientModule where
  resource : Resource
  declaredIn : ModuleKey

/-- The resources that become modules. -/
structure ModuleSources where
  /-- The files, under their keys. -/
  files : Registry ModuleKey Resource
  /-- The modules that are not files, under their names. None has the key of a file. -/
  ambients : Registry ModuleKey AmbientModule

namespace ModuleSources

/-- The files under their keys. A later file takes the place of an earlier one of the same key. -/
def filesOf (resources : List Resource) : Registry ModuleKey Resource :=
  .ofList (resources.map fun r => (r.identifier, r))

def addBlock (declaredIn : ModuleKey) (modules : Registry ModuleKey AmbientModule)
    (block : Resource) : Registry ModuleKey AmbientModule :=
  modules.upsert block.identifier fun
    | some earlier => { earlier with resource := earlier.resource.merge block }
    | none => ⟨block, declaredIn⟩

/-- Take in the blocks of a file, if it is a declaration file. -/
def addBlocks (modules : Registry ModuleKey AmbientModule) (file : Resource) :
    Registry ModuleKey AmbientModule :=
  if file.isTypings then
    (file.resources.filter Resource.isAmbientModule).foldl (addBlock file.identifier) modules
  else modules

/-- The modules that the declaration files among some resources declare, under their names. -/
def ambientsOf (resources : List Resource) : Registry ModuleKey AmbientModule :=
  resources.foldl addBlocks .empty

/-- The modules of some resources. A module whose name is the key of a file gives way to the
file. -/
def ofResources (hoists : Bool) (resources : List Resource) : ModuleSources :=
  let files := filesOf resources
  let ambients := if hoists then ambientsOf resources else .empty
  ⟨files, ambients.filter fun name _ => !files.contains name⟩

def isKnown (sources : ModuleSources) (key : ModuleKey) : Bool :=
  sources.files.contains key || sources.ambients.contains key

/-- The modules with their statements resolved, files first. -/
def entries (sources : ModuleSources) : List (ModuleKey × ModuleEntry) :=
  (sources.files.mapValues fun key r =>
      ModuleEntry.ofResource sources.isKnown none key r).entries ++
    (sources.ambients.mapValues fun key m =>
      ModuleEntry.ofResource sources.isKnown (some m.declaredIn) key m.resource).entries

theorem mem_entries {sources : ModuleSources} {pair : ModuleKey × ModuleEntry}
    (h : pair ∈ sources.entries) : ∃ declaredIn? resource,
      pair.2 = ModuleEntry.ofResource sources.isKnown declaredIn? pair.1 resource := by
  rcases List.mem_append.mp h with h | h
  · obtain ⟨⟨key, r⟩, _, rfl⟩ := List.mem_map.mp h
    exact ⟨none, r, rfl⟩
  · obtain ⟨⟨key, m⟩, _, rfl⟩ := List.mem_map.mp h
    exact ⟨some m.declaredIn, m.resource, rfl⟩

end ModuleSources

namespace ModuleTable

def build (hoists : Bool) (resources : List Resource) : ModuleTable where
  modules := .ofList (ModuleSources.ofResources hoists resources).entries
  keyed _ h := by
    obtain ⟨_, _, hentry⟩ := ModuleSources.mem_entries (Registry.mem_of_mem_ofList h)
    rw [hentry]
    rfl
  filled _ h := by
    obtain ⟨_, _, hentry⟩ := ModuleSources.mem_entries (Registry.mem_of_mem_ofList h)
    rw [hentry]
    rfl

def keys (table : ModuleTable) : List ModuleKey := table.modules.keys

def entries (table : ModuleTable) : List ModuleEntry := table.modules.values

def get? (table : ModuleTable) (key : ModuleKey) : Option ModuleEntry := table.modules.get? key

/-- The modules of the table that a module's statements name, in the order in which they are first
named. -/
def neighbours (table : ModuleTable) (key : ModuleKey) : List ModuleKey :=
  match table.get? key with
  | some entry => (entry.targets.filter table.modules.contains).eraseDups
  | none => []

/-- The graph of the modules: one node for each, and an edge to each module that its statements
name. What is named last is visited first. -/
def graph (table : ModuleTable) : Graph ModuleKey where
  nodes := table.keys
  neighbours key := (table.neighbours key).reverse

end ModuleTable

end ExportIndex
