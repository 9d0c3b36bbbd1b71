import ExportIndex.ModuleTable

/-!
# Export surfaces

The surface of a module is what the module makes importable: bindings under names, a default
binding, or the value of an `export =`. It is put together from offers, each of which proposes a
binding for a name; some offers are taken from the surfaces of other modules.
-/

namespace ExportIndex

/-- An item of a module, wherever its name is passed on to. -/
structure Binding where
  /-- The module in which the item stands. -/
  origin : ModuleKey
  slot : Slot
  deriving DecidableEq

/-- A binding proposed for a name. -/
structure Offer where
  name : String
  binding : Binding
  deriving DecidableEq

/-- The value of an `export =` statement. -/
structure AssignedValue where
  name : String
  declarations : List Declaration
  resources : List Resource

/-- What a module makes importable. -/
structure Surface where
  named : Registry String (List Binding) := .empty
  default? : Option Binding := none
  assigned? : Option AssignedValue := none
  /-- Whether named exports were given up for the value of an `export =`. -/
  conflict : Bool := false

namespace Surface

def empty : Surface := {}

instance : Inhabited Surface := ⟨empty⟩

/-- Take up an offer. The first offer of a default binding stands, and a binding is listed once
under a name. -/
def bind (s : Surface) (offer : Offer) : Surface :=
  if offer.name = defaultName then { s with default? := s.default?.or (some offer.binding) }
  else
    { s with
      named := s.named.upsert offer.name fun
        | some bindings =>
          if offer.binding ∈ bindings then bindings else bindings ++ [offer.binding]
        | none => [offer.binding] }

def ofOffers (offers : List Offer) : Surface := offers.foldl bind empty

/-- The bindings that are importable under a name. -/
def bindings (s : Surface) (name : String) : List Binding :=
  if name = defaultName then s.default?.toList else (s.named.get? name).getD []

/-- All named bindings, as offers. -/
def namedOffers (s : Surface) : List Offer :=
  s.named.entries.flatMap fun (name, bindings) => bindings.map (Offer.mk name)

def bindingCount (s : Surface) : Nat :=
  s.namedOffers.length + s.default?.toList.length

end Surface

namespace ModuleEntry

def binding (entry : ModuleEntry) (slot : Slot) : Binding := ⟨entry.key, slot⟩

/-- The declarations of a module that have an item, with the positions of both. -/
def placedDeclarations (entry : ModuleEntry) : List (Declaration × Nat) :=
  ((entry.resource.declarations.zip entry.locals).map (·.1)).zipIdx

/-- The nested resources of a module that have an item, with the positions of both. -/
def placedResources (entry : ModuleEntry) : List (Resource × Nat) :=
  ((entry.resource.resources.zip entry.nested).map (·.1)).zipIdx

/-- The default exports and exported declarations of a module, as offers. -/
def declarationOffers (entry : ModuleEntry) : List Offer :=
  entry.placedDeclarations.filterMap fun (d, index) =>
    if d.isDefault then some ⟨defaultName, entry.binding (.declared index)⟩
    else if d.exported then d.name?.map fun name => ⟨name, entry.binding (.declared index)⟩
    else none

/-- The exported nested resources of a module, as offers. -/
def nestedOffers (entry : ModuleEntry) : List Offer :=
  entry.placedResources.filterMap fun (r, index) =>
    if r.exported then r.name?.map fun name => ⟨name, entry.binding (.nested index)⟩ else none

/-- The module's own declarations and nested resources of a name. -/
def ownBindings (entry : ModuleEntry) (name : String) : List Binding :=
  ((entry.placedDeclarations.filter (·.1.isNamed name)).map fun found =>
      entry.binding (.declared found.2)) ++
    ((entry.placedResources.filter (·.1.name? = some name)).map fun found =>
      entry.binding (.nested found.2))

/-- The binding of a place, if an item stands there. -/
def bindingsAt (entry : ModuleEntry) (slot : Slot) : List Binding :=
  if (entry.item? slot).isSome then [entry.binding slot] else []

/-- What a local name stands for when it is imported. -/
inductive Imported where
  | name (name : String)
  | whole
  deriving DecidableEq

/-- What an import statement binds a local name to. -/
def imported? (name : String) : Import → Option Imported
  | .named _ specifiers defaultLocal? _ _ =>
    if defaultLocal? = some name then some (.name defaultName)
    else (specifiers.find? (·.localName = name)).map fun s => .name s.name
  | .ofDefault _ localName _ => if localName = name then some (.name defaultName) else none
  | .star _ localName _ _ => if localName = name then some .whole else none
  | .required _ localName _ => if localName = name then some .whole else none
  | .bare .. => none

/-- What the import statement at a position gives a local name, if the imported module is known and
the statement binds the name. -/
def importBindings? (entry : ModuleEntry) (source : ModuleKey → Surface) (name : String)
    (index : Nat) (i : Import) : Option (List Binding) :=
  (entry.importTarget? index).bind fun target =>
    (imported? name i).map fun
      | .name original => (source target).bindings original
      | .whole => entry.bindingsAt (.moduleImport index)

/-- What a local name stands for: the module's own declarations and nested resources, and only when
there are none, what the first import that binds the name gives. -/
def localBindings (entry : ModuleEntry) (source : ModuleKey → Surface) (name : String) :
    List Binding :=
  match entry.ownBindings name with
  | [] =>
    (entry.resource.imports.zipIdx.findSome? fun (i, index) =>
      entry.importBindings? source name index i).getD []
  | own => own

/-- What the export statement at a position offers. -/
def exportOffers (entry : ModuleEntry) (source : ModuleKey → Surface) (e : Export) (index : Nat) :
    List Offer :=
  match e with
  | .all _ rename? _ =>
    match entry.exportTarget? index, rename? with
    | none, _ => []
    | some _, some name => (entry.bindingsAt (.starExport index)).map (Offer.mk name)
    | some target, none => (source target).namedOffers
  | .named (some _) specifiers _ _ =>
    match entry.exportTarget? index with
    | none => []
    | some target =>
      specifiers.flatMap fun s => ((source target).bindings s.name).map (Offer.mk s.localName)
  | .named none specifiers _ _ =>
    specifiers.flatMap fun s => (entry.localBindings source s.name).map (Offer.mk s.localName)
  | .assigned .. => []

/-- Everything that a module without an `export =` offers, given the surfaces of other modules. -/
def offers (entry : ModuleEntry) (source : ModuleKey → Surface) : List Offer :=
  entry.declarationOffers ++ entry.nestedOffers ++
    entry.resource.exports.zipIdx.flatMap fun (e, index) => entry.exportOffers source e index

/-- Whether a module exports anything but a default and an `export =`. -/
def hasNamedExports (entry : ModuleEntry) : Bool :=
  entry.resource.exports.any (!·.isAssigned) ||
    entry.resource.declarations.any (fun d => d.exported && !d.isDefault) ||
    entry.resource.resources.any (·.exported)

/-- The name and targets of an `export =`. -/
def assignedTargets? : Export → Option (String × List AssignedTarget)
  | .assigned name targets _ => some (name, targets)
  | _ => none

/-- The items of the declarations that the targets of an `export =` point at. -/
def assignedLocals (entry : ModuleEntry) (targets : List AssignedTarget) : List Declaration :=
  targets.filterMap fun
    | .declaration index => entry.locals[index]?
    | .resource _ => none

/-- The value of the first `export =` of a module. -/
def assignedValue? (entry : ModuleEntry) : Option AssignedValue :=
  (entry.resource.exports.findSome? assignedTargets?).map fun (name, targets) =>
    ⟨name, entry.assignedLocals targets, entry.resource.assignedResources targets⟩

/-- The surface of a module, given the surfaces of other modules. An `export =` leaves room for
nothing else. -/
def surface (entry : ModuleEntry) (source : ModuleKey → Surface) : Surface :=
  match entry.assignedValue? with
  | some value => { Surface.empty with assigned? := some value, conflict := entry.hasNamedExports }
  | none => .ofOffers (entry.offers source)

end ModuleEntry

end ExportIndex
