import ExportIndex.Piece

/-!
# Reading a resource

A file, namespace or module body is read statement by statement. Its openings become nested
resources, and the site of each opening is recorded as the owner of what is written inside it.
Exports of local names and the targets of `export =` are settled at the end, so that they may stand
before what they name.
-/

namespace ExportIndex

/-- A resource with the sites that own its nested resources, as pairs of the address of a site and
the path of positions to the nested resource. -/
structure Extraction where
  resource : Resource
  owners : List (Address × List Nat)

/-- One contribution to a resource, with the bodies of openings read. -/
inductive Part where
  | importing (i : Import)
  | declaring (d : Declaration)
  | exporting (e : Export)
  /-- A nested resource with the address of the site that opens it. -/
  | nesting (address : Address) (inner : Extraction)

namespace Part

def import? : Part → Option Import
  | importing i => some i
  | _ => none

def declaration? : Part → Option Declaration
  | declaring d => some d
  | _ => none

def export? : Part → Option Export
  | exporting e => some e
  | _ => none

/-- The nested resource that a part contributes, with the address of its site. -/
def nested? : Part → Option (Address × Extraction)
  | nesting address inner => some (address, inner)
  | _ => none

end Part

/-- Declarations in source order, with one added. Function overloads share a name, and the first
of them stands for all. -/
def addDeclaration (declarations : List Declaration) : Declaration → List Declaration
  | .ofFunction f =>
    if declarations.any (·.isFunctionNamed f.name) then declarations
    else declarations ++ [.ofFunction f]
  | d => declarations ++ [d]

/-- The names that the export clauses without a source export as they are. -/
def localExportNames (exports : List Export) : List String :=
  ((exports.flatMap Export.localSpecifiers).filter (·.rename?.isNone)).map (·.name)

/-- Mark a declaration as exported if it is among the exported names. -/
def Declaration.markExported (names : List String) (d : Declaration) : Declaration :=
  if d.name?.any (names.contains ·) then d.setExported true else d

def Resource.markExported (names : List String) (r : Resource) : Resource :=
  if r.name?.any (names.contains ·) then { r with exported := true } else r

/-- The positions at which the declarations and nested resources of a name stand. -/
def targetsOf (name : String) (declarations : List Declaration) (resources : List Resource) :
    List AssignedTarget :=
  ((declarations.zipIdx.filter (·.1.isNamed name)).map fun found => .declaration found.2) ++
    ((resources.zipIdx.filter (·.1.name? = some name)).map fun found => .resource found.2)

/-- Fill in what an `export =` points at. -/
def Export.attachTargets (declarations : List Declaration) (resources : List Resource) :
    Export → Export
  | assigned name _ span => assigned name (targetsOf name declarations resources) span
  | e => e

/-- The resource that some parts make, under a given header. -/
def Resource.ofParts (header : Resource) (parts : List Part) : Resource :=
  let exports := parts.filterMap Part.export?
  let names := localExportNames exports
  let declarations := (parts.filterMap Part.declaration?).foldl addDeclaration []
  let nested := (parts.filterMap Part.nested?).map (·.2.resource)
  { header with
    imports := parts.filterMap Part.import?
    declarations := declarations.map (Declaration.markExported names)
    resources := nested.map (Resource.markExported names)
    exports := exports.map (Export.attachTargets declarations nested) }

/-- The owners among some parts: the site of each nested resource, and the sites inside it with
their paths lengthened by its position. -/
def ownersOfParts (parts : List Part) : List (Address × List Nat) :=
  (parts.filterMap Part.nested?).zipIdx.flatMap fun ((address, inner), index) =>
    (address, [index]) :: inner.owners.map fun (below, path) => (below, index :: path)

/-- The extraction that some parts make, under a given header. -/
def Extraction.ofParts (header : Resource) (parts : List Part) : Extraction :=
  ⟨.ofParts header parts, ownersOfParts parts⟩

namespace Site

theorem sizeOf_of_mem_children {site child : Site} (h : child ∈ site.children) :
    sizeOf child.node < sizeOf site.node :=
  Node.sizeOf_child (node_mem_of_mem_children h)

theorem sizeOf_of_field? {site child : Site} {field : String}
    (h : site.field? field = some child) : sizeOf child.node < sizeOf site.node :=
  sizeOf_of_mem_children (List.mem_of_find?_eq_some h)

theorem sizeOf_of_childOfKind? {site child : Site} {kind : String}
    (h : site.childOfKind? kind = some child) : sizeOf child.node < sizeOf site.node :=
  sizeOf_of_mem_children (List.mem_filter.mp (List.mem_of_find?_eq_some h)).1

theorem sizeOf_of_mem_namedChildren {site child : Site} (h : child ∈ site.namedChildren) :
    sizeOf child.node < sizeOf site.node :=
  sizeOf_of_mem_children (List.mem_filter.mp h).1

/-- The body of an opening among the pieces of a construct is a part of the construct. -/
theorem sizeOf_body_of_constructPieces {source : String} {exported ambient : Bool}
    {site body : Site} {o : Opening}
    (ho : .opening o ∈ site.constructPieces source exported ambient)
    (hbody : o.body? = some body) : sizeOf body.node < sizeOf site.node := by
  unfold constructPieces at ho
  split at ho
  · simp only [List.mem_map, Option.mem_toList, Piece.opening.injEq, exists_eq_right] at ho
    simp only [opening?, Option.map_eq_some_iff] at ho
    obtain ⟨name, _, rfl⟩ := ho
    exact sizeOf_of_field? hbody
  · simp at ho

theorem sizeOf_body_of_ambientPieces {source : String} {exported : Bool} {site body : Site}
    {o : Opening} (ho : .opening o ∈ site.ambientPieces source exported)
    (hbody : o.body? = some body) : sizeOf body.node < sizeOf site.node := by
  unfold ambientPieces at ho
  split at ho
  · simp only [List.mem_map, Option.mem_toList, Piece.opening.injEq, exists_eq_right] at ho
    simp only [globalOpening?, Option.map_eq_some_iff] at ho
    obtain ⟨inner, hinner, rfl⟩ := ho
    cases hbody
    exact sizeOf_of_childOfKind? hinner
  · split at ho
    · next inner hinner =>
      exact Nat.lt_trans (sizeOf_body_of_constructPieces ho hbody)
        (sizeOf_of_mem_namedChildren (List.mem_of_mem_head? hinner))
    · simp at ho

theorem sizeOf_body_of_exportPieces {source : String} {site body : Site} {o : Opening}
    (ho : .opening o ∈ site.exportPieces source) (hbody : o.body? = some body) :
    sizeOf body.node < sizeOf site.node := by
  unfold exportPieces at ho
  split at ho
  · next declaration hdeclaration =>
    have hlt := sizeOf_of_field? hdeclaration
    split at ho
    · simp at ho
    · split at ho
      · exact Nat.lt_trans (sizeOf_body_of_ambientPieces ho hbody) hlt
      · exact Nat.lt_trans (sizeOf_body_of_constructPieces ho hbody) hlt
  · split at ho
    · unfold defaultPiece at ho
      split at ho <;> simp at ho
    · simp at ho

/-- The body of an opening among the pieces of a statement is a part of the statement. -/
theorem sizeOf_body_of_pieces {source : String} {exportsMembers : Bool} {site body : Site}
    {o : Opening} (ho : .opening o ∈ site.pieces source exportsMembers)
    (hbody : o.body? = some body) : sizeOf body.node < sizeOf site.node := by
  unfold pieces at ho
  split at ho
  · simp at ho
  · exact sizeOf_body_of_exportPieces ho hbody
  · split at ho
    · next inner hinner =>
      exact Nat.lt_trans (sizeOf_body_of_constructPieces ho hbody)
        (sizeOf_of_childOfKind? hinner)
    · simp at ho
  · exact sizeOf_body_of_ambientPieces ho hbody
  · exact sizeOf_body_of_constructPieces ho hbody

def bodyPieces (source : String) (exportsMembers : Bool) (body : Site) : List Piece :=
  body.namedChildren.flatMap (pieces source exportsMembers)

theorem sizeOf_body_of_bodyPieces {source : String} {exportsMembers : Bool} {site body : Site}
    {o : Opening} (ho : .opening o ∈ site.bodyPieces source exportsMembers)
    (hbody : o.body? = some body) : sizeOf body.node < sizeOf site.node := by
  obtain ⟨statement, hmem, ho⟩ := List.mem_flatMap.mp ho
  exact Nat.lt_trans (sizeOf_body_of_pieces ho hbody) (sizeOf_of_mem_namedChildren hmem)

/-- Read the body of a file, namespace or module into a resource with a given header. -/
def extract (source : String) (header : Resource) (exportsMembers : Bool) (body : Site) :
    Extraction :=
  .ofParts header <|
    (body.bodyPieces source exportsMembers).attach.map fun
      | ⟨.importing i, _⟩ => .importing i
      | ⟨.declaring d, _⟩ => .declaring d
      | ⟨.exporting e, _⟩ => .exporting e
      | ⟨.opening o, _⟩ =>
        .nesting o.site.address <|
          match _hbody : o.body? with
          | some inner => extract source o.header o.exportsMembers inner
          | none => ⟨o.header, []⟩
termination_by body.node
decreasing_by exact sizeOf_body_of_bodyPieces ‹_› _hbody

end Site

end ExportIndex
