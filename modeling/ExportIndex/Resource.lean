import ExportIndex.Declaration
import ExportIndex.Linkage
import ExportIndex.ModuleKey
import ExportIndex.NameSet
import ExportIndex.Text.CamelCase

/-!
# Resources

A resource records what one file, or one namespace or module nested in it, declares, imports,
exports and uses, together with the resources nested in it.
-/

namespace ExportIndex

/-- What a resource is written as. -/
inductive ResourceKind where
  | file
  | namespaceBlock
  | moduleBlock
  deriving DecidableEq

def ResourceKind.word : ResourceKind → String
  | file => "file"
  | namespaceBlock => "namespace"
  | moduleBlock => "module"

/-- What a file, namespace or module holds. -/
structure Resource where
  kind : ResourceKind
  name? : Option String := none
  filePath? : Option Path := none
  rootPath? : Option Path := none
  exported : Bool := false
  ambient : Bool := false
  declarations : List Declaration := []
  imports : List Import := []
  exports : List Export := []
  usages : NameSet := .empty
  resources : List Resource := []
  span? : Option Span := none

namespace Resource

/-- A nested resource is smaller than the resource that holds it. -/
theorem sizeOf_nested {r nested : Resource} (h : nested ∈ r.resources) :
    sizeOf nested < sizeOf r := by
  have := List.sizeOf_lt_of_mem h
  cases r
  simp at this ⊢
  omega

/-- The module key of a file, and the declared name of a namespace or module. -/
def identifier (r : Resource) : String :=
  match r.filePath?, r.rootPath? with
  | some file, some root => moduleKey file root
  | _, _ => r.name?.getD ""

/-- The name under which a module is offered as a whole: the camel-case form of the last part of
its name. -/
def namespaceName (r : Resource) : String :=
  String.ofList (Text.camelCase (Text.afterLast '/' (r.name?.getD "").toList))

/-- The resource without its paths, at every level. -/
def withoutPaths (r : Resource) : Resource :=
  { r with
    filePath? := none
    rootPath? := none
    resources := r.resources.map fun nested => nested.withoutPaths }
termination_by r
decreasing_by exact sizeOf_nested ‹_›

def declaration? (r : Resource) (name : String) : Option Declaration :=
  r.declarations.find? fun d => d.name? = some name

/-- The declarations that the targets of an `export =` point at. -/
def assignedDeclarations (r : Resource) (targets : List AssignedTarget) : List Declaration :=
  targets.filterMap fun
    | .declaration index => r.declarations[index]?
    | .resource _ => none

/-- The nested resources that the targets of an `export =` point at. -/
def assignedResources (r : Resource) (targets : List AssignedTarget) : List Resource :=
  targets.filterMap fun
    | .declaration _ => none
    | .resource index => r.resources[index]?

/-- Change the nested resource at a path of positions. A path that leads nowhere changes the last
resource on it. -/
def modifyAt (change : Resource → Resource) : List Nat → Resource → Resource
  | [], r => change r
  | index :: path, r =>
    if index < r.resources.length then
      { r with resources := r.resources.modify index (modifyAt change path) }
    else change r

/-- The nested resource at a path of positions. -/
def at? : List Nat → Resource → Option Resource
  | [], r => some r
  | index :: path, r => r.resources[index]?.bind (at? path)

end Resource

end ExportIndex
