import ExportIndex.Proofs.Comments.Resources
import ExportIndex.Proofs.Extraction.Containers
import ExportIndex.Proofs.Resolution.Shape
import ExportIndex.Proofs.Table.Modules

/-!
# What an `export =` points at

The targets of an `export =` are positions, found when all statements of its container are read. So they
count overloads that were left out for nothing, and they include what comes after the statement. A module
keeps its declarations and nested resources where they stand, and the value on its surface is what stands
at these positions.
-/

namespace ExportIndex

/-! ## Statements -/

/-- The name in a statement `export = name`. -/
def Node.assignedName? (source : String) (node : Node) : Option String :=
  if node.isLinkage && node.hasToken "=" then
    (node.namedChildren.filter fun child => child.kind ≠ "comment").getLast?.map (text source)
  else none

theorem Node.filter_isAssigned_export? {source : String} {node : Node} (hlinks : node.isLinkage = true) :
    (node.export? source).toList.filter Export.isAssigned =
      (node.assignedName? source).toList.map fun name => .assigned name [] node.span := by
  rw [export?, assignedName?, hlinks, Bool.true_and]
  split
  · rw [assignedExport?]
    cases (node.namedChildren.filter fun child => child.kind ≠ "comment").getLast? <;> rfl
  · split
    · rfl
    · have hclause : ∀ e ∈ node.clauseExport? source, e.isAssigned = false := by
        intro e he
        unfold clauseExport? at he
        split at he
        · obtain rfl := Option.some.inj he
          rfl
        · obtain ⟨library, -, he⟩ := Option.bind_eq_some_iff.mp he
          split at he
          · obtain rfl := Option.some.inj he
            rfl
          · cases he
      cases he : node.clauseExport? source with
      | none => rfl
      | some e => simp [hclause e he]

/-- What a statement contributes has an `export =` exactly if it is one. -/
theorem Site.filter_isAssigned_pieces (source : String) (exportsMembers : Bool) (statement : Site) :
    ((statement.pieces source exportsMembers).filterMap Piece.export?).filter Export.isAssigned =
      (statement.node.assignedName? source).toList.map fun name =>
        .assigned name [] statement.node.span := by
  have hnone : statement.node.isLinkage = false → statement.node.assignedName? source = none := by
    intro hlinks
    simp [Node.assignedName?, hlinks]
  have hcontributes := contributes_pieces source exportsMembers statement
  generalize statement.pieces source exportsMembers = pieces at hcontributes ⊢
  cases hcontributes with
  | links hlinks =>
      rw [List.filterMap_map, ← Node.filter_isAssigned_export? hlinks]
      exact congrArg (List.filter _) List.filterMap_some
  | imports hkind =>
      rw [hnone (by simp [Node.isLinkage, hkind])]
      simp [Piece.export?]
  | declares hlinks =>
      rw [hnone hlinks]
      simp [Piece.export?]
  | defaults hlinks | opens hlinks | opensGlobal hlinks | nothing hlinks =>
      rw [hnone hlinks]
      rfl

/-- The statements `export = name` of a container, with the names. -/
def Container.assignments (source : String) (c : Container) : List (Site × String) :=
  c.statements.flatMap fun statement =>
    (statement.node.assignedName? source).toList.map (statement, ·)

theorem Container.filter_isAssigned_contributed (source : String) (c : Container) :
    ((c.contributed source Piece.export?).map Prod.snd).filter Export.isAssigned =
      (c.assignments source).map fun (statement, name) => .assigned name [] statement.node.span := by
  rw [map_snd_contributed, pieces, List.filterMap_flatMap, List.filter_flatMap, assignments,
    List.map_flatMap]
  simp only [Site.filter_isAssigned_pieces, List.map_map]
  rfl

/-! ## Targets -/

/-- Targets point at what has a name in a resource: at its declarations that are no default exports, and
then at its nested resources. -/
def Resource.PointsAt (r : Resource) (name : String) (targets : List AssignedTarget) : Prop :=
  ∃ declared nested : List Nat,
    targets = declared.map .declaration ++ nested.map .resource ∧
      PositionsOf (fun d => d.isDefault = false ∧ d.name? = some name) r.declarations declared ∧
      PositionsOf (fun nested => nested.name? = some name) r.resources nested

/-- An export has the name and the span of a statement `export = name`, and points at what has the name. -/
def Resource.Attaches (r : Resource) (assignment : Site × String) (e : Export) : Prop :=
  ∃ targets, e = .assigned assignment.2 targets assignment.1.node.span ∧ r.PointsAt assignment.2 targets

/-- The value of an `export =` in a resource. -/
def Resource.valueNamed (r : Resource) (name : String) : AssignedValue :=
  ⟨name, r.declarations.filter (·.isNamed name), r.resources.filter (·.name? = some name)⟩

/-- The targets under a name are positions of declarations and of nested resources. -/
theorem targetsOf_eq (name : String) (declarations : List Declaration) (resources : List Resource) :
    targetsOf name declarations resources =
      (positionsWhere (·.isNamed name) declarations).map .declaration ++
        (positionsWhere (·.name? = some name) resources).map .resource := by
  simp only [targetsOf, positionsWhere, List.map_map]
  rfl

theorem targetsOf_map {name : String} {f : Declaration → Declaration} {g : Resource → Resource}
    (hf : ∀ d, (f d).isNamed name = d.isNamed name) (hg : ∀ r, (g r).name? = r.name?)
    (declarations : List Declaration) (resources : List Resource) :
    targetsOf name (declarations.map f) (resources.map g) = targetsOf name declarations resources := by
  simp [targetsOf, List.zipIdx_map, List.filter_map, Function.comp_def, hf, hg]

namespace Resource

variable (r : Resource) (name : String)

theorem pointsAt_targetsOf : r.PointsAt name (targetsOf name r.declarations r.resources) := by
  refine ⟨_, _, targetsOf_eq name r.declarations r.resources, ?_, ?_⟩
  · simpa [Declaration.isNamed] using positionsOf_positionsWhere (·.isNamed name) r.declarations
  · simpa using positionsOf_positionsWhere (·.name? = some name) r.resources

theorem assignedDeclarations_targetsOf :
    r.assignedDeclarations (targetsOf name r.declarations r.resources) =
      r.declarations.filter (·.isNamed name) := by
  rw [← filterMap_positionsWhere, targetsOf_eq]
  simp [assignedDeclarations, List.filterMap_append, List.filterMap_map]

theorem assignedResources_targetsOf :
    r.assignedResources (targetsOf name r.declarations r.resources) =
      r.resources.filter (·.name? = some name) := by
  rw [← filterMap_positionsWhere, targetsOf_eq]
  simp [assignedResources, List.filterMap_append, List.filterMap_map]

end Resource

/-! ## Resources -/

theorem Declaration.isNamed_markExported (names : List String) (d : Declaration) (name : String) :
    (d.markExported names).isNamed name = d.isNamed name := by
  rw [markExported_eq_setExported, isNamed, isDefault_setExported, name?_setExported, isNamed]

theorem Resource.name?_markExported (names : List String) (r : Resource) :
    (r.markExported names).name? = r.name? := by
  unfold markExported
  split <;> rfl

theorem Export.isAssigned_attachTargets (declarations : List Declaration) (resources : List Resource)
    (e : Export) : (e.attachTargets declarations resources).isAssigned = e.isAssigned := by
  cases e <;> rfl

/-- What is marked after the targets were found stands where it stood before. -/
theorem Export.attachTargets_markExported (names : List String) (declarations : List Declaration)
    (resources : List Resource) (e : Export) :
    e.attachTargets (declarations.map (Declaration.markExported names))
        (resources.map (Resource.markExported names)) =
      e.attachTargets declarations resources := by
  cases e with
  | assigned name =>
      rw [attachTargets, attachTargets, targetsOf_map
        (fun d => Declaration.isNamed_markExported names d name) (Resource.name?_markExported names)]
  | all | named => rfl

/-- The targets in a resource are found in its own declarations and nested resources. -/
theorem Resource.filter_isAssigned_ofParts (header : Resource) (parts : List Part) :
    (ofParts header parts).exports.filter Export.isAssigned =
      ((parts.filterMap Part.export?).filter Export.isAssigned).map
        (Export.attachTargets (ofParts header parts).declarations (ofParts header parts).resources) := by
  have hkept : ∀ declarations resources,
      Export.isAssigned ∘ Export.attachTargets declarations resources = Export.isAssigned := by
    intro declarations resources
    funext e
    exact e.isAssigned_attachTargets declarations resources
  simp only [ofParts, List.filter_map, hkept]
  apply List.map_congr_left
  intro e he
  rw [Export.attachTargets_markExported]

namespace Container

variable {source : String} {c : Container} {r : Resource}

/-- A resource has the statements `export = name` of a container, each with the targets under its name. -/
def Assigns (source : String) (c : Container) (r : Resource) : Prop :=
  r.exports.filter Export.isAssigned = (c.assignments source).map fun (statement, name) =>
    .assigned name (targetsOf name r.declarations r.resources) statement.node.span

theorem Assigns.markExported (h : c.Assigns source r) (names : List String) :
    c.Assigns source (r.markExported names) := by
  unfold Resource.markExported
  split
  · exact h
  · exact h

theorem Assigns.of_withoutUsages (h : c.Assigns source r.withoutUsages) : c.Assigns source r := by
  have htargets : ∀ name, targetsOf name r.withoutUsages.declarations r.withoutUsages.resources =
      targetsOf name r.declarations r.resources := by
    intro name
    rw [Resource.withoutUsages]
    conv_lhs => rw [← List.map_id r.declarations]
    exact targetsOf_map (fun _ => rfl) (fun nested => by rw [Resource.withoutUsages]) _ _
  unfold Assigns at h
  simp only [htargets] at h
  rwa [Resource.withoutUsages] at h

theorem assigns_read (header : Resource) : c.Assigns source (c.read source header).resource := by
  unfold Assigns
  rw [read, Extraction.ofParts, Resource.filter_isAssigned_ofParts, exports_parts,
    filter_isAssigned_contributed, List.map_map]
  rfl

/-- A resource settles the statements `export = name` of a container. -/
structure Settles (source : String) (c : Container) (r : Resource) : Prop where
  /-- It has the statements in their order, and each points at exactly what has the name. -/
  attaches : List.Forall₂ r.Attaches (c.assignments source) (r.exports.filter Export.isAssigned)
  /-- A module that is made of it has the value of the first statement. -/
  assigned?_eq : ∀ (table : ModuleTable) key entry, table.get? key = some entry → entry.resource = r →
    ∃ surface, table.resolve.get? key = some surface ∧
      surface.assigned? = (c.assignments source).head?.map fun (_, name) => r.valueNamed name
  /-- A file module is made of it, unless a later resource has the same key. -/
  isModule : ∀ hoists before after, (∀ later ∈ after, later.identifier ≠ r.identifier) →
    ∃ entry, (ModuleTable.build hoists (before ++ r :: after)).get? r.identifier = some entry ∧
      entry.resource = r ∧ entry.declaredIn? = none

theorem Assigns.assignedValue?_eq (h : c.Assigns source r) {entry : ModuleEntry}
    (hfilled : entry.Filled) (hentry : entry.resource = r) :
    entry.assignedValue? = (c.assignments source).head?.map fun (_, name) => r.valueNamed name := by
  have hfound : r.exports.filterMap ModuleEntry.assignedTargets? = (c.assignments source).map
      fun found => (found.2, targetsOf found.2 r.declarations r.resources) := by
    have hassigned : r.exports.filterMap ModuleEntry.assignedTargets? =
        (r.exports.filter Export.isAssigned).filterMap ModuleEntry.assignedTargets? := by
      rw [List.filterMap_filter]
      apply List.filterMap_congr
      intro e _
      cases e <;> rfl
    rw [hassigned, h, List.filterMap_map, ← List.filterMap_eq_map]
    rfl
  rw [ModuleEntry.assignedValue?, hentry, ← List.head?_filterMap, hfound, List.head?_map, Option.map_map]
  apply congrArg (Option.map · _)
  funext found
  simp only [Function.comp_apply, hfilled.assignedLocals_eq, hentry, r.assignedDeclarations_targetsOf,
    r.assignedResources_targetsOf, Resource.valueNamed]

theorem Assigns.settles (h : c.Assigns source r) : c.Settles source r where
  attaches := by
    rw [h, List.forall₂_map_right_iff, List.forall₂_same]
    exact fun assignment _ => ⟨_, rfl, r.pointsAt_targetsOf assignment.2⟩
  assigned?_eq table key entry hentry hresource := by
    have hkey : key ∈ table.keys := Registry.mem_keys_iff.mpr ⟨entry, hentry⟩
    obtain ⟨seen, hseen⟩ := ModuleTable.exists_surface_eq_resolve hentry
    refine ⟨_, table.get?_resolve hkey, ?_⟩
    rw [hseen, (entry.assigned?_surface seen).1,
      h.assignedValue?_eq (ModuleTable.filled_of_get? hentry) hresource]
  isModule hoists before after hlast := by
    have hmem : r.identifier ∈ (before ++ r :: after).map Resource.identifier := by simp
    have hlater : after.filter (·.identifier = r.identifier) = [] :=
      List.filter_eq_nil_iff.mpr fun later hmem => by simpa using hlast later hmem
    have hfound : ((before ++ r :: after).filter (·.identifier = r.identifier)).getLast? = some r := by
      simp [List.filter_append, hlater]
    exact ⟨_, by rw [ModuleTable.get?_build_of_mem hmem, hfound, Option.map_some], rfl, rfl⟩

end Container

/-- An `export =` points at exactly what it names, at every level of a document: in the resource of each
container, its targets are the positions of the declarations of that name that are no default exports, and
then of the nested resources of that name, wherever they stand. A module that is made of such a resource
has the value that its first `export =` points at. -/
theorem Document.settles_toResource (document : Document) (file root : Path) (path : List Nat) :
    Option.Rel (Container.Settles document.text) (document.container.at? document.text path)
      ((document.toResource file root).at? path) := by
  have hrel := document.rel_at?_of_read (P := Container.Assigns document.text) file root
    (fun _ header _ => Container.assigns_read header) (fun _ _ names h => h.markExported names)
    (fun _ _ h => h.of_withoutUsages) path
  exact rel_imp (fun _ _ hassigns => hassigns.settles) hrel

namespace Document

/-- An `export =` in front of a module, a function with an overload and a default export, all of the name
that it points at. -/
def assignedAhead : Document where
  text :=
    "export = f; declare module \"f\"; function f(); function f() \x7b\x7d export default class f \x7b\x7d"
  root :=
    part "program" 0 87 []
      [part "export_statement" 0 11 []
        [mark "export" 0 6, mark "=" 7 8, part "identifier" 9 10 [] [], mark ";" 10 11],
        part "ambient_declaration" 12 31 []
          [mark "declare" 12 19,
            part "module" 20 30 [] [mark "module" 20 26, part "string" 27 30 ["name"] []]],
        part "function_signature" 32 45 [] [mark "function" 32 40, part "identifier" 41 42 ["name"] []],
        part "function_declaration" 46 61 [] [mark "function" 46 54, part "identifier" 55 56 ["name"] []],
        part "export_statement" 62 87 []
          [mark "export" 62 68, mark "default" 69 76,
            part "class_declaration" 77 87 ["declaration"]
              [mark "class" 77 82, part "type_identifier" 83 84 ["name"] [],
                part "class_body" 85 87 ["body"] []]]]

example :
    (assignedAhead.toResource ⟨"/w/a.ts"⟩ ⟨"/w"⟩).exports =
        [.assigned "f" [.declaration 0, .resource 0] ⟨0, 11⟩] ∧
      (assignedAhead.toResource ⟨"/w/a.ts"⟩ ⟨"/w"⟩).declarations.map Declaration.name? =
        [some "f", some "f"] := by
  rw [view_toResource Resource.exports_withoutUsages, view_toResource Resource.declarations_withoutUsages]
  exact ⟨rfl, rfl⟩

end Document

end ExportIndex
