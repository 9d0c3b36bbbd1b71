import ExportIndex.Proofs.Extraction.Usages
import ExportIndex.Proofs.Table.Blocks

/-!
# The module blocks of a document

Among the statements at the top of a declaration file, those that declare a module by its name become
module blocks. Of a `declare` statement only the first part is read, whatever its name is written as.
-/

namespace ExportIndex

/-- The name of a module, as it is written. Namespaces are not modules. -/
def Node.moduleName? (node : Node) : Option Node :=
  if node.kind = "module" then node.field? "name" else none

/-- The `declare` statement that a statement is or that it exports, other than `declare global`. -/
def Site.declared? (statement : Site) : Option Site :=
  let declared? :=
    if statement.node.kind = "ambient_declaration" then some statement
    else if statement.node.kind = "export_statement" ∧ statement.node.hasToken "default" = false then
      (statement.field? "declaration").filter (·.node.kind = "ambient_declaration")
    else none
  declared?.filter fun declared => !declared.node.hasToken "global"

namespace Document

/-- The `declare` statements at the top of a document. -/
def declared (document : Document) : List Site :=
  (Site.ofRoot document.root).namedChildren.filterMap Site.declared?

/-- The names of the modules that come first in a `declare` statement. -/
def leadingNames (document : Document) : List Node :=
  document.declared.filterMap fun statement => statement.namedChildren.head?.bind (·.node.moduleName?)

end Document

/-! ## The blocks among openings -/

def Opening.isModuleBlock (o : Opening) : Bool := o.kind = .moduleBlock && o.ambient

/-- The names of the module blocks among some pieces. -/
def blockNamesOf (pieces : List Piece) : List String :=
  ((pieces.filterMap Piece.opening?).filter Opening.isModuleBlock).map (·.name)

/-- A module name as a text, without the quotes of a string. -/
def Node.unquoted (source : String) (name : Node) : String := Text.unquote (name.text source)

namespace Site

variable {source : String} {exported exportsMembers : Bool}

theorem blockNamesOf_declarations (declarations : List Declaration) :
    blockNamesOf (declarations.map .declaring) = [] := by
  simp [blockNamesOf, List.filterMap_map, Function.comp_def, Piece.opening?]

/-- A construct is a module block if it is a declared module. -/
theorem blockNamesOf_constructPieces (ambient : Bool) (site : Site) :
    blockNamesOf (site.constructPieces source exported ambient) =
      if ambient then (site.node.moduleName?.map (Node.unquoted source)).toList else [] := by
  unfold constructPieces
  split
  next hkind =>
    cases hname : site.node.field? "name" with
    | none => simp [opening?, hname, blockNamesOf, Node.moduleName?]
    | some name =>
        rcases List.mem_pair.mp hkind with hnamespace | hmodule
        · simp [opening?, hname, hnamespace, blockNamesOf, Piece.opening?, Opening.isModuleBlock,
            Node.moduleName?]
        · cases ambient <;>
            simp [opening?, hname, hmodule, blockNamesOf, Piece.opening?, Opening.isModuleBlock,
              Node.moduleName?, Node.unquoted]
  next hkind =>
    have hnone : site.node.moduleName? = none := if_neg fun h => hkind (by rw [h]; decide)
    rw [blockNamesOf_declarations, hnone]
    cases ambient <;> rfl

theorem blockNamesOf_ambientPieces (site : Site) :
    blockNamesOf (site.ambientPieces source exported) =
      if site.node.hasToken "global" then []
      else ((site.namedChildren.head?.bind (·.node.moduleName?)).map (Node.unquoted source)).toList := by
  unfold ambientPieces
  split
  · cases hblock : site.childOfKind? "statement_block" <;>
      simp [globalOpening?, hblock, blockNamesOf, Piece.opening?, Opening.isModuleBlock]
  · cases site.namedChildren.head? with
    | none => rfl
    | some inner => exact blockNamesOf_constructPieces true inner

theorem blockNamesOf_exportPieces (site : Site) : blockNamesOf (site.exportPieces source) =
    if site.node.hasToken "default" then []
    else match site.field? "declaration" with
      | some declaration =>
        if declaration.node.kind = "ambient_declaration" then
          blockNamesOf (declaration.ambientPieces source true)
        else []
      | none => [] := by
  unfold exportPieces
  cases site.field? "declaration" with
  | some declaration =>
      by_cases hdefault : site.node.hasToken "default" = true
      · simp [hdefault, blockNamesOf, Piece.opening?]
      · simp only [hdefault, if_false, Bool.false_eq_true]
        split
        · rfl
        · exact blockNamesOf_constructPieces false declaration
  | none =>
      have hlinkage : ∀ exports : List Export, blockNamesOf (exports.map .exporting) = [] := by
        intro exports
        simp [blockNamesOf, List.filterMap_map, Function.comp_def, Piece.opening?]
      have hdefault : ∀ span value, blockNamesOf [defaultPiece source span value] = [] := by
        intro span value
        unfold defaultPiece
        split <;> rfl
      rw [ite_self]
      dsimp only
      split
      · exact hdefault _ _
      · exact hlinkage _

/-- The module blocks among what a statement at the top of a file contributes. -/
theorem blockNamesOf_pieces (statement : Site) :
    blockNamesOf (statement.pieces source exportsMembers) =
      ((statement.declared?.bind fun declared => declared.namedChildren.head?.bind
        (·.node.moduleName?)).map (Node.unquoted source)).toList := by
  unfold pieces
  split
  next hkind => simp [declared?, hkind, blockNamesOf, List.filterMap_map, Function.comp_def, Piece.opening?]
  next hkind =>
    rw [blockNamesOf_exportPieces]
    cases hdefault : statement.node.hasToken "default" with
    | true => simp [declared?, hkind, hdefault]
    | false =>
        cases hdeclaration : statement.field? "declaration" with
        | none => simp [declared?, hkind, hdefault, hdeclaration]
        | some declaration =>
            by_cases hambient : declaration.node.kind = "ambient_declaration"
            · cases hglobal : declaration.node.hasToken "global" <;>
                simp [declared?, hkind, hdefault, hdeclaration, hambient, hglobal, Option.filter_some,
                  blockNamesOf_ambientPieces]
            · simp [declared?, hkind, hdefault, hdeclaration, hambient]
  next hkind =>
    have hnone : statement.declared? = none := by simp [declared?, hkind]
    rw [hnone]
    split
    · exact blockNamesOf_constructPieces false _
    · rfl
  next hkind =>
    rw [blockNamesOf_ambientPieces]
    cases hglobal : statement.node.hasToken "global" <;>
      simp [declared?, hkind, hglobal, Option.filter_some]
  next hexport _ hambient =>
    have hnone : statement.declared? = none := by
      rw [declared?, if_neg hambient, if_neg fun h => hexport h.1]
      rfl
    rw [hnone]
    exact blockNamesOf_constructPieces false _

end Site

/-! ## The blocks of a file -/

namespace Opening

variable (source : String) (o : Opening) (names : List String)

/-- What is read inside an opening leaves its header as it is. -/
theorem header_read : (o.read source).resource.kind = o.kind ∧
    (o.read source).resource.ambient = o.ambient ∧
    (o.read source).resource.name? = some o.name ∧
    (o.read source).resource.filePath? = none := by
  unfold read
  split
  · rw [Site.extract_eq]
    exact ⟨rfl, rfl, rfl, rfl⟩
  · exact ⟨rfl, rfl, rfl, rfl⟩

theorem isAmbientModule_read :
    ((o.read source).resource.markExported names).isAmbientModule = o.isModuleBlock := by
  obtain ⟨hkind, hambient, hname, -⟩ := o.header_read source
  unfold Resource.markExported
  split <;> simp [Resource.isAmbientModule, isModuleBlock, hkind, hambient, hname]

theorem identifier_read :
    ((o.read source).resource.markExported names).identifier = o.name := by
  obtain ⟨-, -, hname, hfile⟩ := o.header_read source
  unfold Resource.markExported
  split <;> simp [Resource.identifier, hname, hfile]

end Opening

/-- The nested resources that become module blocks keep the names of their openings. -/
theorem Resource.blockNames_ofParts (source : String) (header : Resource) (pieces : List Piece) :
    (Resource.ofParts header (pieces.map (Piece.read source))).blockNames =
      if header.isTypings then blockNamesOf pieces else [] := by
  have htypings : (Resource.ofParts header (pieces.map (Piece.read source))).isTypings =
      header.isTypings := rfl
  rw [blockNames, moduleBlocks, htypings]
  split
  · simp only [Resource.ofParts, Site.filterMap_nested?_read, List.map_map, List.filter_map,
      Function.comp_def, Site.nestedPart, Opening.isAmbientModule_read, Opening.identifier_read]
    rfl
  · rfl

namespace Resource

theorem identifier_withoutUsages (r : Resource) : r.withoutUsages.identifier = r.identifier := by
  rw [withoutUsages]
  rfl

theorem isAmbientModule_withoutUsages (r : Resource) :
    r.withoutUsages.isAmbientModule = r.isAmbientModule := by
  rw [withoutUsages]
  rfl

theorem isTypings_withoutUsages (r : Resource) : r.withoutUsages.isTypings = r.isTypings := by
  rw [withoutUsages]
  rfl

theorem blockNames_withoutUsages (r : Resource) : r.withoutUsages.blockNames = r.blockNames := by
  rw [blockNames, blockNames, moduleBlocks, moduleBlocks, isTypings_withoutUsages,
    resources_withoutUsages]
  split
  · rw [List.filter_map, List.map_map]
    simp only [Function.comp_def, isAmbientModule_withoutUsages, identifier_withoutUsages]
  · rfl

end Resource

namespace Document

variable (document : Document) (file root : Path)

theorem identifier_toResource : (document.toResource file root).identifier = moduleKey file root :=
  view_toResource Resource.identifier_withoutUsages document

theorem blockNamesOf_bodyPieces :
    blockNamesOf ((Site.ofRoot document.root).bodyPieces document.text false) =
      document.leadingNames.map (Node.unquoted document.text) := by
  rw [blockNamesOf, Site.bodyPieces, List.filterMap_flatMap, List.filter_flatMap, List.map_flatMap,
    leadingNames, declared, List.filterMap_filterMap, List.map_filterMap, List.filterMap_eq_flatMap_toList]
  exact List.flatMap_congr fun statement _ => Site.blockNamesOf_pieces statement

/-- The module blocks of a declaration file are named by the modules that come first in its `declare`
statements. -/
theorem blockNames_toResource : (document.toResource file root).blockNames =
    if file.isDeclarationFile then document.leadingNames.map (Node.unquoted document.text) else [] := by
  rw [view_toResource Resource.blockNames_withoutUsages document, parts, Resource.blockNames_ofParts,
    blockNamesOf_bodyPieces]
  rfl

end Document

end ExportIndex
