import ExportIndex.Extraction

/-!
# Usages

Which identifiers of a source text use a name from elsewhere, and which resource each use belongs
to: the innermost one whose site stands above it.
-/

namespace ExportIndex

/-- The kinds of construct in which identifiers name what another module binds. -/
def linkageKinds : List String :=
  ["import_statement", "import_require_clause", "export_clause", "namespace_export"]

namespace Site

/-- Whether a site holds an identifier that may use a name. Member names do not count, except the
names of class fields. -/
def isCandidate (site : Site) : Bool :=
  site.node.named &&
    (site.node.kind ∈ ["identifier", "type_identifier", "shorthand_property_identifier"] ||
      (site.node.kind = "property_identifier" && site.node.inField "name" &&
        site.parent?.any fun parent => parent.kind = "public_field_definition"))

/-- Whether the identifier at a site uses a name: it stands in no import or export clause, is not
itself what a statement exports, declares nothing and is no member of a qualified type. -/
def isUse (site : Site) : Bool :=
  !site.isBelow linkageKinds &&
    !(site.parent?.any fun parent => parent.kind = "export_statement") &&
    !site.isDeclaredName && !site.isQualifiedMember

/-- The sites at which a tree uses a name, in source order. -/
def uses (source : String) (root : Site) : List Site :=
  root.preorder.filter fun site =>
    site.isCandidate && site.isUse && site.node.text source ≠ ""

end Site

/-- The path of the nearest owner above an address; the empty path if there is none. -/
def ownerAbove (owners : List (Address × List Nat)) : Address → List Nat
  | [] => []
  | _ :: above =>
    match owners.lookup above with
    | some path => path
    | none => ownerAbove owners above

/-- Add the used name to the resource that owns a site. -/
def Resource.addUse (source : String) (owners : List (Address × List Nat)) (r : Resource)
    (site : Site) : Resource :=
  Resource.modifyAt
    (fun owner => { owner with usages := owner.usages.insert (site.node.text source) })
    (ownerAbove owners site.address) r

/-- The resource with the names that the sites of a tree use. -/
def Extraction.withUsages (source : String) (e : Extraction) (root : Site) : Resource :=
  (root.uses source).foldl (Resource.addUse source e.owners) e.resource

end ExportIndex
