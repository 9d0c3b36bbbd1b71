import ExportIndex.Proofs.Extraction.Containers

/-!
# Export flags

What a container exports is decided by its own statements: by the `export` in front of a construct, by the
export clauses of the container, wherever they stand, and by what kind of container it is. The clauses of
other containers around, beside or inside it count for nothing.
-/

namespace ExportIndex

/-! ## Clauses -/

/-- The clause of an export statement without a source. -/
def Node.localClause? (node : Node) : Option Node :=
  if node.isLinkage && !node.hasToken "=" && (!node.hasToken "namespace" || node.hasToken "*") &&
      (node.field? "source").isNone then
    node.childOfKind? "export_clause"
  else none

/-- Some export clause of a container, without a source, has an entry for a name and gives it no new
name. -/
def Container.Offers (source : String) (c : Container) (name : String) : Prop :=
  ∃ statement ∈ c.statements, ∃ clause ∈ statement.node.localClause?,
    ∃ entry ∈ clause.childrenOfKind ["export_specifier"],
      entry.fieldText? source "name" = some name ∧ entry.field? "alias" = none

theorem mem_localExportNames_iff {exports : List Export} {name : String} :
    name ∈ localExportNames exports ↔ ⟨name, none⟩ ∈ exports.flatMap Export.localSpecifiers := by
  simp only [localExportNames, List.mem_map, List.mem_filter, Option.isNone_iff_eq_none]
  constructor
  · rintro ⟨⟨_, _⟩, ⟨hspecifier, rfl⟩, rfl⟩
    exact hspecifier
  · exact fun hspecifier => ⟨⟨name, none⟩, ⟨hspecifier, rfl⟩, rfl⟩

namespace Node

variable {source : String} {node : Node} {name : String}

theorem mem_specifiers_iff {kind : String} {clause : Node} :
    ⟨name, none⟩ ∈ clause.specifiers source kind ↔ ∃ entry ∈ clause.childrenOfKind [kind],
      entry.fieldText? source "name" = some name ∧ entry.field? "alias" = none := by
  rw [specifiers, List.mem_filterMap]
  refine exists_congr fun entry => and_congr_right fun _ => ?_
  rw [Option.map_eq_some_iff]
  constructor
  · rintro ⟨other, hname, heq⟩
    obtain ⟨rfl, halias⟩ := SymbolSpecifier.mk.inj heq
    exact ⟨hname, Option.map_eq_none_iff.mp halias⟩
  · rintro ⟨hname, halias⟩
    have hrename : entry.fieldText? source "alias" = none := Option.map_eq_none_iff.mpr halias
    exact ⟨name, hname, by rw [hrename]⟩

/-- An export statement offers the entries of its local clause, and else none. -/
theorem localSpecifiers_export? (hlinks : node.isLinkage = true) :
    (node.export? source).toList.flatMap Export.localSpecifiers =
      node.localClause?.toList.flatMap (specifiers source "export_specifier") := by
  rw [export?, localClause?, hlinks, Bool.true_and]
  cases node.hasToken "=" with
  | true =>
      rw [if_pos rfl, assignedExport?]
      cases (node.namedChildren.filter fun child => child.kind ≠ "comment").getLast? <;> rfl
  | false =>
      rw [if_neg Bool.false_ne_true]
      cases hnamespace : node.hasToken "namespace" && !node.hasToken "*" with
      | true =>
          have hclause : (!node.hasToken "namespace" || node.hasToken "*") = false := by
            revert hnamespace
            cases node.hasToken "namespace" <;> cases node.hasToken "*" <;> decide
          simp [hclause]
      | false =>
          have hclause : (!node.hasToken "namespace" || node.hasToken "*") = true := by
            revert hnamespace
            cases node.hasToken "namespace" <;> cases node.hasToken "*" <;> decide
          rw [hclause, clauseExport?, fieldText?]
          cases node.childOfKind? "export_clause" with
          | some clause => cases node.field? "source" <;> simp [Export.localSpecifiers]
          | none =>
              cases node.field? "source" with
              | none => simp
              | some library =>
                  simp only [Option.map_some, Option.bind_some]
                  split <;> simp [Export.localSpecifiers]

end Node

/-- A statement offers the entries of its local clause. -/
theorem Site.localSpecifiers_pieces (source : String) (exportsMembers : Bool) (statement : Site) :
    ((statement.pieces source exportsMembers).filterMap Piece.export?).flatMap Export.localSpecifiers =
      statement.node.localClause?.toList.flatMap (Node.specifiers source "export_specifier") := by
  have hnone : statement.node.isLinkage = false → statement.node.localClause? = none := by
    intro hlinks
    simp [Node.localClause?, hlinks]
  have hcontributes := contributes_pieces source exportsMembers statement
  generalize statement.pieces source exportsMembers = pieces at hcontributes ⊢
  cases hcontributes with
  | links hlinks =>
      rw [List.filterMap_map, ← Node.localSpecifiers_export? hlinks]
      exact congrArg (List.flatMap _) List.filterMap_some
  | imports hkind =>
      rw [hnone (by simp [Node.isLinkage, hkind])]
      simp [Piece.export?]
  | declares hlinks =>
      rw [hnone hlinks]
      simp [Piece.export?]
  | defaults hlinks | opens hlinks | opensGlobal hlinks | nothing hlinks =>
      rw [hnone hlinks]
      rfl

/-- The names that mark the declarations and nested resources of a container are those that its clauses
offer. -/
theorem Container.mem_offered_iff {source : String} {c : Container} {name : String} :
    name ∈ c.offered source ↔ c.Offers source name := by
  rw [offered, mem_localExportNames_iff, map_snd_contributed, pieces, List.filterMap_flatMap,
    List.flatMap_assoc, List.mem_flatMap]
  refine exists_congr fun statement => and_congr_right fun _ => ?_
  rw [Site.localSpecifiers_pieces, List.mem_flatMap]
  simp only [Option.mem_toList, Option.mem_def, Node.mem_specifiers_iff]

/-! ## Flags -/

theorem Declaration.exported_markExported {d : Declaration} (hdefault : d.isDefault = false)
    (names : List String) :
    (d.markExported names).exported = (d.exported || d.name?.any (names.contains ·)) := by
  unfold markExported
  split
  next hnamed =>
    rw [exported_setExported, hdefault, hnamed, Bool.false_or, Bool.or_true]
  next hnamed =>
    rw [Bool.not_eq_true] at hnamed
    rw [hnamed, Bool.or_false]

theorem Declaration.exists_name? {d : Declaration} (hdefault : d.isDefault = false) :
    ∃ name, d.name? = some name := by
  cases d <;> first | exact ⟨_, rfl⟩ | cases hdefault

/-- What a statement introduces has the flag that the statement gives. -/
theorem Site.Contributes.exported_of_mem {source : String} {exportsMembers : Bool} {statement : Site}
    {pieces : List Piece} (h : statement.Contributes source exportsMembers pieces) {d : Declaration}
    (hd : .declaring d ∈ pieces) (hdefault : d.isDefault = false) :
    d.exported = statement.exportsDirectly exportsMembers := by
  cases h with
  | defaults _ other hother =>
      obtain rfl := Piece.declaring.inj (List.mem_singleton.mp hd)
      rw [hother] at hdefault
      cases hdefault
  | declares _ construct =>
      obtain ⟨other, hother, heq⟩ := List.mem_map.mp hd
      obtain rfl := Piece.declaring.inj heq
      exact (Node.exported_of_mem_declarations hother).2
  | _ => simp at hd

namespace Container

variable {source : String} {c : Container}

/-- A name is exported from a container if the statement that introduces it exports it, if the container
exports all its members, or if a clause offers it. -/
def Exposes (source : String) (c : Container) (statement : Site) (name : String) : Prop :=
  statement.node.kind = "export_statement" ∨ c.exportsMembers = true ∨ c.Offers source name

/-- A declaration is what a statement introduces, with the flag that its container gives it. -/
structure FlagsDeclaration (source : String) (c : Container) (introduced : Site × Declaration)
    (d : Declaration) : Prop where
  eq_setExported : d = introduced.2.setExported d.exported
  exported_iff : d.isDefault = false → ∃ name, d.name? = some name ∧
    (d.exported = true ↔ c.Exposes source introduced.1 name)

/-- A nested resource is what a statement opens, with the flag that the container around it gives it. A
`declare global` block is exported by its name alone. -/
structure FlagsNested (source : String) (c : Container) (opening : Site × Opening)
    (nested : Resource) : Prop where
  name?_eq : nested.name? = some opening.2.name
  span?_eq : nested.span? = some opening.2.site.node.span
  block_iff : opening.2.site.node.kind ≠ "ambient_declaration" →
    (nested.exported = true ↔ c.Exposes source opening.1 opening.2.name)
  global_iff : opening.2.site.node.kind = "ambient_declaration" →
    (nested.exported = true ↔ c.Offers source opening.2.name)

/-- The flags in a resource are those that its container gives. -/
structure Flags (source : String) (c : Container) (r : Resource) : Prop where
  declarations : List.Forall₂ (c.FlagsDeclaration source) (c.kept source) r.declarations
  resources : List.Forall₂ (c.FlagsNested source) (c.openings source) r.resources

theorem exportsDirectly_iff {statement : Site} :
    statement.exportsDirectly c.exportsMembers = true ↔
      statement.node.kind = "export_statement" ∨ c.exportsMembers = true := by
  simp [Site.exportsDirectly]

theorem exported_of_mem_introduced {introduced : Site × Declaration}
    (h : introduced ∈ c.introduced source) (hdefault : introduced.2.isDefault = false) :
    introduced.2.exported = introduced.1.exportsDirectly c.exportsMembers := by
  obtain ⟨-, piece, hpiece, heq⟩ := mem_contributed_iff.mp h
  cases piece with
  | declaring d =>
      obtain rfl := Option.some.inj heq
      exact (Site.contributes_pieces source c.exportsMembers introduced.1).exported_of_mem hpiece hdefault
  | _ => cases heq

theorem flagsDeclaration_of_mem {introduced : Site × Declaration}
    (h : introduced ∈ c.introduced source) :
    c.FlagsDeclaration source introduced (introduced.2.markExported (c.offered source)) := by
  have hsame := Declaration.markExported_eq_setExported (c.offered source) introduced.2
  refine ⟨hsame, fun hdefault => ?_⟩
  rw [hsame, Declaration.isDefault_setExported] at hdefault
  obtain ⟨name, hname⟩ := Declaration.exists_name? hdefault
  refine ⟨name, ?_, ?_⟩
  · rw [hsame, Declaration.name?_setExported, hname]
  · rw [Declaration.exported_markExported hdefault, hname, Option.any_some, Bool.or_eq_true,
      exported_of_mem_introduced h hdefault, exportsDirectly_iff, List.contains_iff_mem, mem_offered_iff,
      or_assoc, Exposes]

theorem Shows.flagsNested {opening : Site × Opening} {nested : Resource}
    (h : c.Shows source opening nested) : c.FlagsNested source opening nested := by
  refine ⟨h.name?_eq, h.span?_eq, fun hkind => ?_, fun hkind => ?_⟩
  · rw [h.exported_eq, h.standsIn.exported_eq, decide_eq_true hkind, Bool.true_and, Bool.or_eq_true,
      exportsDirectly_iff, List.contains_iff_mem, mem_offered_iff, or_assoc, Exposes]
  · rw [h.exported_eq, h.standsIn.exported_eq, decide_eq_false (not_not_intro hkind), Bool.false_and,
      Bool.false_or, List.contains_iff_mem, mem_offered_iff]

theorem Holds.flags {r : Resource} (h : c.Holds source r) : c.Flags source r where
  declarations := by
    rw [h.declarations_eq, List.forall₂_map_right_iff, List.forall₂_same]
    exact fun kept hkept => flagsDeclaration_of_mem ((firstOverloads_sublist _ _).subset hkept)
  resources := h.shows.imp fun _ _ hshows => hshows.flagsNested

end Container

/-! ## Other containers -/

/-- Two pieces say the same of the container that they stand in. What stands inside a container that they
open may differ. -/
inductive Piece.Alike : Piece → Piece → Prop where
  | same (piece : Piece) : Alike piece piece
  | opening {o other : Opening} (hname : other.name = o.name) (hexported : other.exported = o.exported) :
      Alike (.opening o) (.opening other)

/-- A reading of pieces that does not look into openings cannot tell alike pieces apart. -/
theorem filterMap_eq_of_alike {α : Type} {kind? : Piece → Option α} {ps others : List Piece}
    (hkind : ∀ piece other, Piece.Alike piece other → kind? other = kind? piece)
    (h : List.Forall₂ Piece.Alike ps others) : others.filterMap kind? = ps.filterMap kind? := by
  induction h with
  | nil => rfl
  | cons hpiece _ ih => rw [List.filterMap_cons, List.filterMap_cons, hkind _ _ hpiece, ih]

namespace Site

variable {source : String} {exported exportsMembers : Bool} {site other : Site}

theorem alike_constructPieces (h : other.node = site.node) (ambient : Bool) :
    List.Forall₂ Piece.Alike (site.constructPieces source exported ambient)
      (other.constructPieces source exported ambient) := by
  rw [constructPieces, constructPieces, h]
  split
  · rw [opening?, opening?, h]
    cases site.node.field? "name" with
    | none => exact .nil
    | some name => exact .cons (.opening rfl rfl) .nil
  · exact List.forall₂_same.mpr fun piece _ => .same piece

/-- What stands at the same place below two sites is the same if the sites are. -/
theorem rel_of_map_node {site? other? : Option Site} (h : other?.map node = site?.map node) :
    Option.Rel (fun site other => other.node = site.node) site? other? := by
  cases site? with
  | none =>
      obtain rfl := Option.map_eq_none_iff.mp h
      exact .none
  | some site =>
      obtain ⟨other, rfl, hnode⟩ := Option.map_eq_some_iff.mp h
      exact .some hnode

theorem rel_field? (h : other.node = site.node) (field : String) :
    Option.Rel (fun site other => other.node = site.node) (site.field? field) (other.field? field) :=
  rel_of_map_node (by rw [← field?_node, ← field?_node, h])

theorem rel_childOfKind? (h : other.node = site.node) (kind : String) :
    Option.Rel (fun site other => other.node = site.node) (site.childOfKind? kind)
      (other.childOfKind? kind) :=
  rel_of_map_node (by rw [← childOfKind?_node, ← childOfKind?_node, h])

theorem rel_head?_namedChildren (h : other.node = site.node) :
    Option.Rel (fun site other => other.node = site.node) site.namedChildren.head?
      other.namedChildren.head? :=
  rel_of_map_node (by
    rw [← List.head?_map, ← List.head?_map, map_node_namedChildren, map_node_namedChildren, h])

theorem alike_ambientPieces (h : other.node = site.node) :
    List.Forall₂ Piece.Alike (site.ambientPieces source exported)
      (other.ambientPieces source exported) := by
  have hblock := rel_childOfKind? h "statement_block"
  have hinner := rel_head?_namedChildren h
  rw [ambientPieces, ambientPieces, globalOpening?, globalOpening?, h]
  generalize site.childOfKind? "statement_block" = block?, other.childOfKind? "statement_block" = other?
    at hblock ⊢
  generalize site.namedChildren.head? = inner?, other.namedChildren.head? = otherInner? at hinner ⊢
  split
  · cases hblock with
    | none => exact .nil
    | some => exact .cons (.opening rfl rfl) .nil
  · cases hinner with
    | none => exact .nil
    | some hnode => exact alike_constructPieces hnode true

theorem alike_exportPieces (h : other.node = site.node) :
    List.Forall₂ Piece.Alike (site.exportPieces source) (other.exportPieces source) := by
  have hdeclaration := rel_field? h "declaration"
  rw [exportPieces, exportPieces, h]
  generalize site.field? "declaration" = declaration?, other.field? "declaration" = other?
    at hdeclaration ⊢
  cases hdeclaration with
  | none => exact List.forall₂_same.mpr fun piece _ => .same piece
  | @some declaration otherDeclaration hnode =>
      dsimp only
      rw [hnode]
      split
      · exact .cons (.same _) .nil
      · split
        · exact alike_ambientPieces hnode
        · exact alike_constructPieces hnode false

/-- What a statement contributes does not depend on where it stands. -/
theorem alike_pieces (h : other.node = site.node) :
    List.Forall₂ Piece.Alike (site.pieces source exportsMembers)
      (other.pieces source exportsMembers) := by
  have hinner := rel_childOfKind? h "internal_module"
  rw [pieces, pieces, h]
  generalize site.childOfKind? "internal_module" = inner?, other.childOfKind? "internal_module" = other?
    at hinner ⊢
  split
  · exact List.forall₂_same.mpr fun piece _ => .same piece
  · exact alike_exportPieces h
  · cases hinner with
    | none => exact .nil
    | some hnode => exact alike_constructPieces hnode false
  · exact alike_ambientPieces h
  · exact alike_constructPieces h false

end Site

namespace Container

variable {source : String} {c other : Container}

/-- The own statements of two containers contribute the same. What stands around the containers and inside
the containers that they open may differ. -/
def Alike (source : String) (c other : Container) : Prop :=
  List.Forall₂ Piece.Alike (c.pieces source) (other.pieces source)

/-- A container with the same body is alike, wherever it stands. -/
theorem alike_of_body (hmembers : other.exportsMembers = c.exportsMembers)
    (hbody : other.body?.map Site.node = c.body?.map Site.node) : c.Alike source other := by
  have hstatements : List.Forall₂ (fun statement statement' : Site => statement'.node = statement.node)
      c.statements other.statements := by
    have hrel := Site.rel_of_map_node hbody
    rw [statements, statements]
    generalize c.body? = body?, other.body? = other? at hrel ⊢
    cases hrel with
    | none => exact .nil
    | @some body body' hnode =>
        have hnodes : List.Forall₂ (fun node node' => node' = node) (body.namedChildren.map Site.node)
            (body'.namedChildren.map Site.node) := by
          rw [Site.map_node_namedChildren, Site.map_node_namedChildren, hnode]
          exact List.forall₂_same.mpr fun _ _ => rfl
        simpa [List.forall₂_map_left_iff, List.forall₂_map_right_iff] using hnodes
  rw [Alike, pieces, pieces, hmembers]
  exact List.rel_flatMap hstatements fun _ _ hnode => Site.alike_pieces hnode

/-- The declarations and nested resources of a container are marked in the same way in another. -/
structure SameFlags (r other : Resource) : Prop where
  declarations : other.declarations = r.declarations
  resources : other.resources.map (fun nested => (nested.name?, nested.exported)) =
    r.resources.map fun nested => (nested.name?, nested.exported)

theorem Alike.offered_eq (h : c.Alike source other) : other.offered source = c.offered source := by
  rw [offered, offered, map_snd_contributed, map_snd_contributed,
    filterMap_eq_of_alike (fun _ _ hpiece => by cases hpiece <;> rfl) h]

theorem Alike.map_kept_eq (h : c.Alike source other) :
    (other.kept source).map Prod.snd = (c.kept source).map Prod.snd := by
  rw [kept, kept, ← foldl_addDeclaration, ← foldl_addDeclaration, introduced, introduced,
    map_snd_contributed, map_snd_contributed,
    filterMap_eq_of_alike (fun _ _ hpiece => by cases hpiece <;> rfl) h]

/-- The flag of a nested resource is read off its opening and the names that the container offers. -/
theorem Holds.map_resources {r : Resource} (h : c.Holds source r) :
    r.resources.map (fun nested => (nested.name?, nested.exported)) =
      (c.pieces source).filterMap fun piece => piece.opening?.map fun o =>
        (some o.name, o.exported || (c.offered source).contains o.name) := by
  rw [← List.map_filterMap, ← map_snd_contributed, List.map_map]
  refine (map_eq_iff_forall₂.mpr (h.shows.imp fun opening nested hshows => ?_)).symm
  rw [hshows.name?_eq, hshows.exported_eq, Function.comp_apply]

theorem Holds.sameFlags {r r' : Resource} (h : c.Holds source r) (hother : other.Holds source r')
    (halike : c.Alike source other) : SameFlags r r' where
  declarations := by
    have hmarked := congrArg (List.map (Declaration.markExported (c.offered source))) halike.map_kept_eq
    rw [List.map_map, List.map_map] at hmarked
    rw [h.declarations_eq, hother.declarations_eq, halike.offered_eq]
    exact hmarked
  resources := by
    rw [h.map_resources, hother.map_resources, halike.offered_eq]
    refine filterMap_eq_of_alike (fun piece piece' hpiece => ?_) halike
    cases hpiece with
    | same => rfl
    | opening hname hexported => simp [Piece.opening?, hname, hexported]

end Container

/-- Export flags are exact at every level: in the resource of each container, a declaration or nested
resource is exported exactly if its own statement, the kind of the container or a clause of the container
says so. Containers whose own statements contribute the same have the same flags, in whatever documents
they stand, and a container with the same body is such a one. So no clause changes a flag in a container
around, beside or inside its own. -/
theorem Document.flags_toResource (document : Document) (file root : Path) :
    (∀ path, Option.Rel (Container.Flags document.text) (document.container.at? document.text path)
      ((document.toResource file root).at? path)) ∧
    (∀ (other : Document) (file' root' : Path) (path path' : List Nat) (c c' : Container),
      other.text = document.text → document.container.at? document.text path = some c →
      other.container.at? other.text path' = some c' → c.Alike document.text c' →
        ∃ r r', (document.toResource file root).at? path = some r ∧
          (other.toResource file' root').at? path' = some r' ∧ Container.SameFlags r r') ∧
    ∀ c c' : Container, c'.exportsMembers = c.exportsMembers →
      c'.body?.map Site.node = c.body?.map Site.node → c.Alike document.text c' := by
  refine ⟨fun path => ?_, ?_, fun _ _ => Container.alike_of_body⟩
  · exact rel_imp (fun _ _ hholds => hholds.flags) (document.rel_at?_toResource file root path)
  · intro other file' root' path path' c c' htext hc hc' halike
    obtain ⟨r, hr, hholds⟩ := exists_of_rel (document.rel_at?_toResource file root path) hc
    obtain ⟨r', hr', hholds'⟩ := exists_of_rel (other.rel_at?_toResource file' root' path') hc'
    rw [htext] at hholds'
    exact ⟨r, r', hr, hr', hholds.sameFlags hholds' halike⟩

end ExportIndex
