import ExportIndex.Extraction
import ExportIndex.Proofs.Tree.Site

/-!
# What statements contribute

A statement contributes in one way only: imports, an export, a default export, the declarations of one
construct at or below it, or one opening.
-/

namespace ExportIndex

namespace Piece

def import? : Piece → Option Import
  | importing i => some i
  | _ => none

def declaration? : Piece → Option Declaration
  | declaring d => some d
  | _ => none

def export? : Piece → Option Export
  | exporting e => some e
  | _ => none

def opening? : Piece → Option Opening
  | opening o => some o
  | _ => none

end Piece

/-- Whether a node is an export statement without a declaration or value. -/
def Node.isLinkage (node : Node) : Bool :=
  node.kind = "export_statement" && (node.field? "declaration").isNone && (node.field? "value").isNone

/-! ## Declarations of a construct -/

/-- Taking in members changes neither the flag of a class nor its place. -/
theorem ClassDeclaration.exported_foldl_addMember (source : String) (members : List Node)
    (c : ClassDeclaration) : (members.foldl (addMember source) c).exported = c.exported ∧
      (members.foldl (addMember source) c).span = c.span := by
  induction members generalizing c with
  | nil => exact ⟨rfl, rfl⟩
  | cons member rest ih =>
      have hmember : (c.addMember source member).exported = c.exported ∧
          (c.addMember source member).span = c.span := by
        unfold addMember
        split
        · split
          · unfold addConstructor
            split <;> exact ⟨rfl, rfl⟩
          · split <;> exact ⟨rfl, rfl⟩
        · split <;> exact ⟨rfl, rfl⟩
      obtain ⟨hexported, hspan⟩ := ih (c.addMember source member)
      exact ⟨hexported.trans hmember.1, hspan.trans hmember.2⟩

theorem InterfaceDeclaration.exported_foldl_addMember (source : String) (members : List Node)
    (i : InterfaceDeclaration) : (members.foldl (addMember source) i).exported = i.exported ∧
      (members.foldl (addMember source) i).span = i.span := by
  induction members generalizing i with
  | nil => exact ⟨rfl, rfl⟩
  | cons member rest ih =>
      have hmember : (i.addMember source member).exported = i.exported ∧
          (i.addMember source member).span = i.span := by
        unfold addMember
        split <;> exact ⟨rfl, rfl⟩
      obtain ⟨hexported, hspan⟩ := ih (i.addMember source member)
      exact ⟨hexported.trans hmember.1, hspan.trans hmember.2⟩

namespace Node

variable {source : String} {exported : Bool} {node : Node}

theorem exported_toClass : (node.toClass source exported).exported = exported ∧
    (node.toClass source exported).span = node.span := by
  rw [toClass]
  split
  · exact ClassDeclaration.exported_foldl_addMember source _ _
  · exact ⟨rfl, rfl⟩

theorem exported_toInterface : (node.toInterface source exported).exported = exported ∧
    (node.toInterface source exported).span = node.span := by
  rw [toInterface]
  split
  · exact InterfaceDeclaration.exported_foldl_addMember source _ _
  · exact ⟨rfl, rfl⟩

/-- The ways in which a construct introduces declarations: one with its own span, the variables of its
declarators, or none. -/
inductive Introduces (source : String) (exported : Bool) (node : Node) : List Declaration → Prop where
  | single (d : Declaration) (hdefault : d.isDefault = false) (hexported : d.exported = exported)
      (hspan : d.span = node.span) : Introduces source exported node [d]
  | declarators : Introduces source exported node
      ((node.declaredVariables source exported .topLevel).map .ofVariable)
  | nothing : Introduces source exported node []

theorem introduces_declarations (source : String) (exported : Bool) (node : Node) :
    node.Introduces source exported (node.declarations source exported) := by
  unfold declarations
  split
  all_goals first
    | exact .single _ rfl rfl rfl
    | exact .single _ rfl exported_toClass.1 exported_toClass.2
    | exact .single _ rfl exported_toInterface.1 exported_toInterface.2
    | exact .declarators
    | exact .nothing

theorem exported_of_mem_declaredVariables {scope : VariableScope} {v : VariableDeclaration}
    (h : v ∈ node.declaredVariables source exported scope) : v.exported = exported := by
  obtain ⟨declarator, -, hv⟩ := List.mem_flatMap.mp h
  unfold declaratorVariables at hv
  split at hv
  · cases hv
  · obtain ⟨name, -, rfl⟩ := List.mem_map.mp hv
    rfl

/-- The declarations of a construct are no default exports and have the flag that it is read with. -/
theorem exported_of_mem_declarations {d : Declaration} (h : d ∈ node.declarations source exported) :
    d.isDefault = false ∧ d.exported = exported := by
  have hintroduces := introduces_declarations source exported node
  generalize node.declarations source exported = declarations at h hintroduces
  cases hintroduces with
  | single other hdefault hexported =>
      obtain rfl := List.mem_singleton.mp h
      exact ⟨hdefault, hexported⟩
  | declarators =>
      obtain ⟨v, hv, rfl⟩ := List.mem_map.mp h
      exact ⟨rfl, exported_of_mem_declaredVariables hv⟩
  | nothing => cases h

end Node

/-! ## Statements -/

namespace Site

/-- Whether what a statement introduces is exported, whatever the export clauses around it say. -/
def exportsDirectly (exportsMembers : Bool) (statement : Site) : Bool :=
  statement.node.kind = "export_statement" || exportsMembers

theorem site_of_opening? {source : String} {exported ambient : Bool} {site : Site} {o : Opening}
    (h : site.opening? source exported ambient = some o) : o.site = site := by
  obtain ⟨name, -, rfl⟩ := Option.map_eq_some_iff.mp h
  rfl

theorem site_of_globalOpening? {site : Site} {o : Opening} (h : site.globalOpening? = some o) :
    o.site = site := by
  obtain ⟨block, -, rfl⟩ := Option.map_eq_some_iff.mp h
  rfl

/-- The ways in which a statement contributes to its resource. -/
inductive Contributes (source : String) (exportsMembers : Bool) (statement : Site) :
    List Piece → Prop where
  | imports (hkind : statement.node.kind = "import_statement") :
      Contributes source exportsMembers statement ((statement.node.imports source).map .importing)
  | links (hlinks : statement.node.isLinkage = true) :
      Contributes source exportsMembers statement
        ((statement.node.export? source).toList.map .exporting)
  | defaults (hlinks : statement.node.isLinkage = false) (d : Declaration)
      (hdefault : d.isDefault = true) (hspan : d.span = statement.node.span) :
      Contributes source exportsMembers statement [.declaring d]
  | declares (hlinks : statement.node.isLinkage = false) (construct : Site)
      (hunder : statement.Under construct) :
      Contributes source exportsMembers statement
        ((construct.node.declarations source (statement.exportsDirectly exportsMembers)).map .declaring)
  | opens (hlinks : statement.node.isLinkage = false) (construct : Site)
      (hunder : statement.Under construct) (hkind : construct.node.kind ∈ openingKinds) (ambient : Bool)
      (o : Opening)
      (ho : construct.opening? source (statement.exportsDirectly exportsMembers) ambient = some o) :
      Contributes source exportsMembers statement [.opening o]
  | opensGlobal (hlinks : statement.node.isLinkage = false) (construct : Site)
      (hunder : statement.Under construct) (hkind : construct.node.kind = "ambient_declaration")
      (o : Opening) (ho : construct.globalOpening? = some o) :
      Contributes source exportsMembers statement [.opening o]
  | nothing (hlinks : statement.node.isLinkage = false) :
      Contributes source exportsMembers statement []

variable {source : String} {exportsMembers exported : Bool} {statement construct : Site}

theorem contributes_constructPieces (hlinks : statement.node.isLinkage = false)
    (hunder : statement.Under construct) (hexported : statement.exportsDirectly exportsMembers = exported)
    (ambient : Bool) : statement.Contributes source exportsMembers
      (construct.constructPieces source exported ambient) := by
  subst hexported
  unfold constructPieces
  split
  next hkind =>
    cases ho : construct.opening? source (statement.exportsDirectly exportsMembers) ambient with
    | none => exact .nothing hlinks
    | some o => exact .opens hlinks construct hunder hkind ambient o ho
  next => exact .declares hlinks construct hunder

theorem contributes_ambientPieces (hlinks : statement.node.isLinkage = false)
    (hunder : statement.Under construct) (hexported : statement.exportsDirectly exportsMembers = exported)
    (hkind : construct.node.kind = "ambient_declaration") :
    statement.Contributes source exportsMembers (construct.ambientPieces source exported) := by
  unfold ambientPieces
  split
  · cases ho : construct.globalOpening? with
    | none => exact .nothing hlinks
    | some o => exact .opensGlobal hlinks construct hunder hkind o ho
  · split
    next inner hinner =>
      have hchild := mem_children_of_mem_namedChildren (List.mem_of_mem_head? hinner)
      exact contributes_constructPieces hlinks (hunder.tail hchild) hexported true
    next => exact .nothing hlinks

theorem contributes_defaultExport (hlinks : statement.node.isLinkage = false) (node : Node) :
    statement.Contributes source exportsMembers
      [.declaring (node.defaultExport source statement.node.span)] := by
  unfold Node.defaultExport
  split
  · exact .defaults hlinks _ rfl rfl
  · exact .defaults hlinks _ rfl rfl

theorem contributes_exportPieces (hkind : statement.node.kind = "export_statement") :
    statement.Contributes source exportsMembers (statement.exportPieces source) := by
  have hexported : statement.exportsDirectly exportsMembers = true := by simp [exportsDirectly, hkind]
  unfold exportPieces
  split
  next declaration hdeclaration =>
    have hunder : statement.Under declaration := .single (mem_children_of_field? hdeclaration)
    have hlinks : statement.node.isLinkage = false := by
      simp [Node.isLinkage, field?_node, hdeclaration]
    split
    · exact contributes_defaultExport hlinks declaration.node
    · split
      next hambient => exact contributes_ambientPieces hlinks hunder hexported hambient
      next => exact contributes_constructPieces hlinks hunder hexported false
  next hdeclaration =>
    split
    next value hvalue =>
      have hlinks : statement.node.isLinkage = false := by simp [Node.isLinkage, hvalue]
      unfold defaultPiece
      split
      · exact .defaults hlinks _ rfl rfl
      · exact contributes_defaultExport hlinks value
    next hvalue =>
      exact .links (by simp [Node.isLinkage, hkind, hvalue, field?_node, hdeclaration])

/-- Each statement contributes in one of the ways. -/
theorem contributes_pieces (source : String) (exportsMembers : Bool) (statement : Site) :
    statement.Contributes source exportsMembers (statement.pieces source exportsMembers) := by
  by_cases hexport : statement.node.kind = "export_statement"
  · have heq : statement.pieces source exportsMembers = statement.exportPieces source := by
      simp [pieces, hexport]
    exact heq ▸ contributes_exportPieces hexport
  · have hlinks : statement.node.isLinkage = false := by simp [Node.isLinkage, hexport]
    have hexported : statement.exportsDirectly exportsMembers = exportsMembers := by
      simp [exportsDirectly, hexport]
    unfold pieces
    split
    next hkind => exact .imports hkind
    next hkind => exact absurd hkind hexport
    next =>
      split
      next inner hinner =>
        have hunder : statement.Under inner := .single (mem_children_of_childOfKind? hinner)
        exact contributes_constructPieces hlinks hunder hexported false
      next => exact .nothing hlinks
    next hkind => exact contributes_ambientPieces hlinks .refl hexported hkind
    next => exact contributes_constructPieces hlinks .refl hexported false

end Site

end ExportIndex
