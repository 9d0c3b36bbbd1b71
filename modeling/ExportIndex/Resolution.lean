import ExportIndex.Surface

/-!
# Resolving a module table

The surfaces of all modules are computed component by component, dependencies first. The modules of
a cycle are computed again and again, each from what the others have so far, until a round adds no
binding.
-/

namespace ExportIndex

/-- The surfaces computed so far, under the keys of their modules. -/
abbrev Surfaces := Registry ModuleKey Surface

namespace Surfaces

/-- The surface of a module as far as it is known. -/
def source (surfaces : Surfaces) (key : ModuleKey) : Surface := (surfaces.get? key).getD .empty

def bindingCount (surfaces : Surfaces) : Nat :=
  surfaces.values.foldr (fun surface count => surface.bindingCount + count) 0

end Surfaces

namespace ModuleTable

/-- The surface of a module among the surfaces of a cycle and, where these have none, among the
finished ones. -/
def sourceIn (done pending : Surfaces) (key : ModuleKey) : Surface :=
  match pending.get? key with
  | some surface => surface
  | none => done.source key

/-- Compute one module of a cycle. -/
def recompute (table : ModuleTable) (done pending : Surfaces) (key : ModuleKey) : Surfaces :=
  match table.get? key with
  | some entry => pending.insert key (entry.surface (sourceIn done pending))
  | none => pending

/-- Compute every module of a cycle once, in order. Each module sees what the earlier ones of the
same round have become. -/
def round (table : ModuleTable) (done : Surfaces) (keys : List ModuleKey) (pending : Surfaces) :
    Surfaces :=
  keys.foldl (table.recompute done) pending

/-- Repeat a step until it does not raise a count above the last one. The first argument bounds
the number of repetitions. -/
def settle (step : Surfaces → Surfaces) : Nat → Nat → Surfaces → Surfaces
  | 0, _, pending => pending
  | rounds + 1, count, pending =>
    let next := step pending
    if next.bindingCount ≤ count then next else settle step rounds next.bindingCount next

/-- The bindings that a surface can list. -/
def allBindings (table : ModuleTable) : List Binding :=
  table.entries.flatMap fun entry => entry.slots.map entry.binding

/-- The names that an export statement mentions. -/
def exportNames : Export → List String
  | .all _ rename? _ => rename?.toList
  | .named _ specifiers _ _ => specifiers.flatMap fun s => s.name :: s.rename?.toList
  | .assigned .. => []

/-- The names under which a surface can list a binding: those of declarations and nested resources,
and those that export statements mention. -/
def allNames (table : ModuleTable) : NameSet :=
  .ofList (table.entries.flatMap fun entry =>
    entry.resource.declarations.filterMap Declaration.name? ++
      entry.resource.resources.filterMap (·.name?) ++ entry.resource.exports.flatMap exportNames)

/-- How many bindings the surfaces of some modules can list together. -/
def bindingLimit (table : ModuleTable) (keys : List ModuleKey) : Nat :=
  keys.length * (1 + table.allBindings.length * table.allNames.toList.length)

/-- Add the surfaces of the modules of a cycle. -/
def resolveCycle (table : ModuleTable) (done : Surfaces) (keys : List ModuleKey) : Surfaces :=
  let start : Surfaces := .ofList (keys.map fun key => (key, .empty))
  let settled := settle (table.round done keys) (table.bindingLimit keys + 1) 0 start
  settled.entries.foldl (fun surfaces entry => surfaces.insert entry.1 entry.2) done

/-- Add the surface of a module that lies on no cycle. -/
def resolveModule (table : ModuleTable) (done : Surfaces) (key : ModuleKey) : Surfaces :=
  match table.get? key with
  | some entry => done.insert key (entry.surface done.source)
  | none => done

def resolveComponent (table : ModuleTable) (done : Surfaces) (keys : List ModuleKey) : Surfaces :=
  if table.graph.isCyclic keys then table.resolveCycle done keys
  else keys.foldl table.resolveModule done

/-- The surfaces of all modules, in the order of the table. -/
def resolve (table : ModuleTable) : Surfaces :=
  let done := table.graph.components.foldl table.resolveComponent .empty
  table.modules.mapValues fun key _ => done.source key

end ModuleTable

end ExportIndex
