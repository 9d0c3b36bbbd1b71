import ExportIndex.Proofs.Collections.Positions
import ExportIndex.Proofs.Extraction.Usages

/-!
# Containers

Each resource of a document is read from a container of statements: the whole tree, or what a nested
namespace, module or `declare global` block holds. Its declarations, imports and exports are those of its
own statements, and its nested resources are read from the containers that these statements open.
-/

namespace ExportIndex

/-! ## Overloads -/

/-- Whether a declaration is a function that has the name of an earlier one. -/
def Declaration.isOverload (earlier : List Declaration) : Declaration → Bool
  | ofFunction f => earlier.any (·.isFunctionNamed f.name)
  | _ => false

section Overloads

variable {α : Type} (declaration : α → Declaration)

/-- The entries of a list without the functions that have the name of an earlier one. -/
def firstOverloads (entries : List α) : List α :=
  (entries.zipIdx.filter fun (entry, index) =>
    !(declaration entry).isOverload ((entries.take index).map declaration)).map Prod.fst

theorem firstOverloads_concat (rest : List α) (entry : α) :
    firstOverloads declaration (rest ++ [entry]) = firstOverloads declaration rest ++
      if (declaration entry).isOverload (rest.map declaration) then [] else [entry] := by
  rw [firstOverloads, firstOverloads, List.zipIdx_append, List.filter_append, List.map_append]
  congr 1
  · congr 1
    apply List.filter_congr
    intro ⟨other, index⟩ hmem
    have hindex : index ≤ rest.length := by
      have hlt := List.snd_lt_of_mem_zipIdx hmem
      dsimp only at hlt
      omega
    simp only [List.take_append_of_le_length hindex]
  · simp only [List.zipIdx_singleton, Nat.zero_add, List.filter_singleton, List.take_left]
    split <;> simp_all

theorem firstOverloads_sublist (entries : List α) :
    (firstOverloads declaration entries).Sublist entries := by
  have hsublist : (firstOverloads declaration entries).Sublist (entries.zipIdx.map Prod.fst) :=
    List.filter_sublist.map _
  rwa [List.zipIdx_map_fst] at hsublist

theorem isFunctionNamed_firstOverloads (entries : List α) (name : String) :
    ((firstOverloads declaration entries).map declaration).any (·.isFunctionNamed name) =
      (entries.map declaration).any (·.isFunctionNamed name) := by
  induction entries using List.reverseRecOn with
  | nil => rfl
  | append_singleton rest entry ih =>
      rw [firstOverloads_concat, List.map_append, List.any_append, List.map_append, List.any_append, ih]
      split
      next hoverload =>
        cases hentry : declaration entry with
        | ofFunction f =>
            rw [hentry] at hoverload
            by_cases hname : f.name = name
            · subst hname
              have hearlier : (rest.map declaration).any (·.isFunctionNamed f.name) = true := hoverload
              simp [hearlier]
            · simp [Declaration.isFunctionNamed, hentry, hname]
        | _ => simp [hentry, Declaration.isOverload] at hoverload
      next => rfl

/-- No two of the declarations that are kept are functions with the same name. -/
theorem pairwise_firstOverloads (entries : List α) :
    (firstOverloads declaration entries).Pairwise fun entry next =>
      ∀ name, (declaration entry).isFunctionNamed name = true →
        (declaration next).isFunctionNamed name = false := by
  induction entries using List.reverseRecOn with
  | nil => exact .nil
  | append_singleton rest entry ih =>
      rw [firstOverloads_concat]
      split
      next => rwa [List.append_nil]
      next hoverload =>
        refine List.pairwise_append.mpr ⟨ih, List.pairwise_singleton _ _, ?_⟩
        intro earlier hearlier last hlast name hname
        obtain rfl := List.mem_singleton.mp hlast
        have hmem := List.mem_map_of_mem (f := declaration)
          ((firstOverloads_sublist declaration rest).subset hearlier)
        cases hentry : declaration last with
        | ofFunction f =>
            rw [hentry] at hoverload
            refine decide_eq_false fun hsame => hoverload ?_
            exact List.any_eq_true.mpr ⟨_, hmem, hsame ▸ hname⟩
        | _ => rfl

theorem addDeclaration_eq (declarations : List Declaration) (d : Declaration) :
    addDeclaration declarations d =
      declarations ++ if d.isOverload declarations then [] else [d] := by
  cases d with
  | ofFunction f =>
      rw [addDeclaration, Declaration.isOverload]
      split <;> simp
  | _ => rfl

/-- Declarations that are added one by one lack the functions that have the name of an earlier one. -/
theorem foldl_addDeclaration (entries : List α) :
    (entries.map declaration).foldl addDeclaration [] =
      (firstOverloads declaration entries).map declaration := by
  induction entries using List.reverseRecOn with
  | nil => rfl
  | append_singleton rest entry ih =>
      have hoverload : ∀ d : Declaration,
          d.isOverload ((firstOverloads declaration rest).map declaration) =
            d.isOverload (rest.map declaration) := by
        intro d
        cases d with
        | ofFunction f => exact isFunctionNamed_firstOverloads declaration rest f.name
        | _ => rfl
      rw [List.map_append, List.foldl_append, ih, List.map_singleton, List.foldl_cons, List.foldl_nil,
        addDeclaration_eq, hoverload, firstOverloads_concat, List.map_append]
      split <;> rfl

end Overloads

/-- Marking a declaration changes no more than its flag. -/
theorem Declaration.markExported_eq_setExported (names : List String) (d : Declaration) :
    d.markExported names = d.setExported (d.markExported names).exported := by
  unfold markExported
  split
  · cases d <;> rfl
  · cases d <;> rfl

/-! ## Statements of a container -/

/-- What holds the statements of one resource: the whole tree, or the body of a namespace, a module or a
`declare global` block. A module may be declared without a body. -/
structure Container where
  /-- The site that opens the container. The whole tree has none. -/
  owner? : Option Site
  body? : Option Site

def Opening.container (o : Opening) : Container := ⟨some o.site, o.body?⟩

def Document.container (document : Document) : Container := ⟨none, some (.ofRoot document.root)⟩

namespace Container

/-- Whether a container is that of a `declare global` block or of a module whose name is a string. -/
def exportsMembers (c : Container) : Bool :=
  c.owner?.any fun owner => owner.node.kind = "ambient_declaration" ||
    (owner.node.field? "name").any fun name => name.kind = "string"

def statements (c : Container) : List Site := c.body?.toList.flatMap Site.namedChildren

/-- The contributions of one kind to a container, each with its statement. -/
def contributed {α : Type} (source : String) (kind? : Piece → Option α) (c : Container) :
    List (Site × α) :=
  c.statements.flatMap fun statement =>
    ((statement.pieces source c.exportsMembers).filterMap kind?).map (statement, ·)

/-- The declarations that the statements of a container introduce. -/
def introduced (source : String) (c : Container) : List (Site × Declaration) :=
  c.contributed source Piece.declaration?

/-- The declarations of a container without the functions that repeat an earlier name. -/
def kept (source : String) (c : Container) : List (Site × Declaration) :=
  firstOverloads Prod.snd (c.introduced source)

/-- The names that the export clauses of a container without a source export as they are. -/
def offered (source : String) (c : Container) : List String :=
  localExportNames ((c.contributed source Piece.export?).map Prod.snd)

def openings (source : String) (c : Container) : List (Site × Opening) :=
  c.contributed source Piece.opening?

/-- The container that a path of positions leads to. -/
def at? (source : String) : List Nat → Container → Option Container
  | [], c => some c
  | index :: path, c => (c.openings source)[index]?.bind fun opening => opening.2.container.at? source path

end Container

/-- A statement opens a nested container. -/
structure Opening.StandsIn (exportsMembers : Bool) (statement : Site) (o : Opening) : Prop where
  under : statement.Under o.site
  body_mem : ∀ body ∈ o.body?, body ∈ o.site.children
  exported_eq : o.exported =
    (decide (o.site.node.kind ≠ "ambient_declaration") && statement.exportsDirectly exportsMembers)
  exportsMembers_eq : o.exportsMembers = o.container.exportsMembers

theorem Site.Contributes.standsIn {source : String} {exportsMembers : Bool} {statement : Site}
    {pieces : List Piece} (h : statement.Contributes source exportsMembers pieces) {o : Opening}
    (ho : .opening o ∈ pieces) : o.StandsIn exportsMembers statement := by
  cases h with
  | opens _ construct hunder hkind ambient other hother =>
      obtain rfl := Piece.opening.inj (List.mem_singleton.mp ho)
      obtain ⟨name, hname, rfl⟩ := Option.map_eq_some_iff.mp hother
      have hne : construct.node.kind ≠ "ambient_declaration" := by
        intro hambient
        rw [hambient] at hkind
        revert hkind
        decide
      exact ⟨hunder, fun _ hbody => mem_children_of_field? hbody, by simp [hne],
        by simp [Container.exportsMembers, Opening.container, hne, hname]⟩
  | opensGlobal _ construct hunder hkind other hother =>
      obtain rfl := Piece.opening.inj (List.mem_singleton.mp ho)
      obtain ⟨block, hblock, rfl⟩ := Option.map_eq_some_iff.mp hother
      refine ⟨hunder, fun body hbody => ?_, by simp [hkind],
        by simp [Container.exportsMembers, Opening.container, hkind]⟩
      obtain rfl := Option.mem_some_iff.mp hbody
      exact mem_children_of_childOfKind? hblock
  | _ => simp at ho

namespace Container

variable {α : Type} {source : String} {kind? : Piece → Option α} {c : Container}

/-- Everything that the statements of a container contribute. -/
def pieces (source : String) (c : Container) : List Piece :=
  c.statements.flatMap (Site.pieces source c.exportsMembers)

theorem map_snd_contributed (source : String) (kind? : Piece → Option α) (c : Container) :
    (c.contributed source kind?).map Prod.snd = (c.pieces source).filterMap kind? := by
  simp [contributed, pieces, List.map_flatMap, List.filterMap_flatMap, Function.comp_def]

theorem mem_contributed_iff {statement : Site} {a : α} :
    (statement, a) ∈ c.contributed source kind? ↔ statement ∈ c.statements ∧
      ∃ piece ∈ statement.pieces source c.exportsMembers, kind? piece = some a := by
  simp only [contributed, List.mem_flatMap, List.mem_map, List.mem_filterMap, Prod.mk.injEq]
  constructor
  · rintro ⟨statement, hstatement, a, hpiece, rfl, rfl⟩
    exact ⟨hstatement, hpiece⟩
  · rintro ⟨hstatement, hpiece⟩
    exact ⟨statement, hstatement, a, hpiece, rfl, rfl⟩

theorem standsIn_of_mem_openings {opening : Site × Opening} (h : opening ∈ c.openings source) :
    opening.2.StandsIn c.exportsMembers opening.1 := by
  obtain ⟨-, piece, hpiece, hopening⟩ := mem_contributed_iff.mp h
  cases piece with
  | opening other =>
      obtain rfl := Option.some.inj hopening
      exact (Site.contributes_pieces source c.exportsMembers opening.1).standsIn hpiece
  | _ => cases hopening

/-! ## Reading containers -/

/-- The extraction of a container, under a given header. -/
def read (source : String) (header : Resource) (c : Container) : Extraction :=
  .ofParts header ((c.pieces source).map (Piece.read source))

theorem read_opening {o : Opening} (h : o.exportsMembers = o.container.exportsMembers) :
    o.read source = o.container.read source o.header := by
  cases hbody : o.body? with
  | none =>
      rw [Opening.read_of_none hbody, read, pieces, statements, Opening.container, hbody]
      rfl
  | some body =>
      rw [Opening.read_of_body hbody, Site.extract_eq, h, read, pieces, statements]
      simp [Opening.container, hbody, Site.bodyPieces]

theorem read_document (document : Document) (file root : Path) :
    document.extraction file root = document.container.read document.text (.ofFile file root) := by
  rw [Document.extraction, Site.extract_eq, read, pieces, statements]
  simp [Document.container, exportsMembers, Site.bodyPieces]

/-- A nested resource shows what a statement of a container opens. It has the flag of the opening, unless a
name that the container offers marks it. -/
structure Shows (source : String) (c : Container) (opening : Site × Opening) (nested : Resource) :
    Prop where
  standsIn : opening.2.StandsIn c.exportsMembers opening.1
  name?_eq : nested.name? = some opening.2.name
  span?_eq : nested.span? = some opening.2.site.node.span
  exported_eq : nested.exported = (opening.2.exported || (c.offered source).contains opening.2.name)

/-- A resource holds what the statements of a container contribute. -/
structure Holds (source : String) (c : Container) (r : Resource) : Prop where
  span?_eq : r.span? = c.owner?.map (·.node.span)
  imports_eq : r.imports = (c.contributed source Piece.import?).map Prod.snd
  exports_eq : r.exports.map Export.span = (c.contributed source Piece.export?).map (·.2.span)
  declarations_eq : r.declarations = (c.kept source).map (·.2.markExported (c.offered source))
  shows : List.Forall₂ (c.Shows source) (c.openings source) r.resources

theorem shows_of_mem_openings {opening : Site × Opening} (h : opening ∈ c.openings source) :
    c.Shows source opening ((opening.2.read source).resource.markExported (c.offered source)) := by
  have hstands := standsIn_of_mem_openings h
  have hname : (opening.2.container.read source opening.2.header).resource.name? =
      some opening.2.name := rfl
  rw [read_opening hstands.exportsMembers_eq]
  unfold Resource.markExported
  rw [hname, Option.any_some]
  split
  next hmarked => exact ⟨hstands, rfl, rfl, by rw [hmarked, Bool.or_true]⟩
  next hmarked =>
    rw [Bool.not_eq_true] at hmarked
    exact ⟨hstands, rfl, rfl, by rw [hmarked, Bool.or_false]; rfl⟩

theorem filterMap_read (source : String) (c : Container) {part? : Part → Option α}
    (h : ∀ piece, part? (piece.read source) = kind? piece) :
    ((c.pieces source).map (Piece.read source)).filterMap part? =
      (c.contributed source kind?).map Prod.snd := by
  rw [map_snd_contributed, List.filterMap_map]
  exact List.filterMap_congr fun piece _ => h piece

theorem exports_parts (source : String) (c : Container) :
    ((c.pieces source).map (Piece.read source)).filterMap Part.export? =
      (c.contributed source Piece.export?).map Prod.snd :=
  filterMap_read source c fun piece => by cases piece <;> rfl

theorem resources_read (header : Resource) : (c.read source header).resource.resources =
    (c.openings source).map fun opening =>
      (opening.2.read source).resource.markExported (c.offered source) := by
  have hnested : ((c.pieces source).map (Piece.read source)).filterMap Part.nested? =
      (c.openings source).map fun opening => Site.nestedPart source opening.2 := by
    rw [Site.filterMap_nested?_read, ← map_snd_contributed, List.map_map]
    rfl
  simp only [read, Extraction.ofParts, Resource.ofParts, hnested, exports_parts, List.map_map]
  rfl

theorem declarations_read (header : Resource) : (c.read source header).resource.declarations =
    (c.kept source).map fun kept => kept.2.markExported (c.offered source) := by
  have hdeclarations : ((c.pieces source).map (Piece.read source)).filterMap Part.declaration? =
      (c.introduced source).map Prod.snd :=
    filterMap_read source c fun piece => by cases piece <;> rfl
  simp only [read, Extraction.ofParts, Resource.ofParts, hdeclarations, exports_parts,
    foldl_addDeclaration, List.map_map]
  rfl

theorem spans_exports_read (header : Resource) :
    (c.read source header).resource.exports.map Export.span =
      (c.contributed source Piece.export?).map (·.2.span) := by
  have hattach : ∀ declarations resources (e : Export),
      (e.attachTargets declarations resources).span = e.span := by
    intro declarations resources e
    cases e <;> rfl
  simp only [read, Extraction.ofParts, Resource.ofParts, exports_parts, List.map_map, Function.comp_def,
    hattach]

theorem holds_read {header : Resource} (hspan : header.span? = c.owner?.map (·.node.span)) :
    c.Holds source (c.read source header).resource where
  span?_eq := hspan
  imports_eq := filterMap_read source c fun piece => by cases piece <;> rfl
  exports_eq := spans_exports_read header
  declarations_eq := declarations_read header
  shows := by
    rw [resources_read, List.forall₂_map_right_iff, List.forall₂_same]
    exact fun opening hopening => shows_of_mem_openings hopening

theorem Holds.markExported {r : Resource} (h : c.Holds source r) (names : List String) :
    c.Holds source (r.markExported names) := by
  unfold Resource.markExported
  split
  · exact ⟨h.span?_eq, h.imports_eq, h.exports_eq, h.declarations_eq, h.shows⟩
  · exact h

/-- What every container gives to the resource that is read from it holds at every path, if marking
resources keeps it. -/
theorem rel_at?_of_read {P : Container → Resource → Prop}
    (hread : ∀ (c : Container) (header : Resource), header.span? = c.owner?.map (·.node.span) →
      P c (c.read source header).resource)
    (hmark : ∀ c r names, P c r → P c (r.markExported names)) (path : List Nat) (c : Container)
    (header : Resource) (hspan : header.span? = c.owner?.map (·.node.span)) :
    Option.Rel P (c.at? source path) ((c.read source header).resource.at? path) := by
  induction path generalizing c header with
  | nil => exact .some (hread c header hspan)
  | cons index rest ih =>
      rw [at?, Resource.at?, resources_read, List.getElem?_map]
      cases hopening : (c.openings source)[index]? with
      | none => exact .none
      | some opening =>
          have hstands := standsIn_of_mem_openings (List.mem_of_getElem? hopening)
          have hrel := ih opening.2.container opening.2.header rfl
          rw [← read_opening hstands.exportsMembers_eq] at hrel
          rw [Option.map_some, Option.bind_some, Option.bind_some]
          by_cases hrest : rest = []
          · subst hrest
            cases hrel with
            | some hholds => exact .some (hmark _ _ _ hholds)
          · rwa [Resource.at?_markExported hrest]

/-- What is collected over a document changes nothing that a container gives. -/
theorem Holds.of_withoutUsages {r : Resource} (h : c.Holds source r.withoutUsages) :
    c.Holds source r := by
  obtain ⟨hspan, himports, hexports, hdeclarations, hshows⟩ := h
  rw [Resource.withoutUsages] at hspan himports hexports hdeclarations hshows
  refine ⟨hspan, himports, hexports, hdeclarations, ?_⟩
  rw [List.forall₂_map_right_iff] at hshows
  apply hshows.imp
  intro opening nested hnested
  rw [Resource.withoutUsages] at hnested
  exact ⟨hnested.standsIn, hnested.name?_eq, hnested.span?_eq, hnested.exported_eq⟩

end Container

namespace Document

theorem withoutUsages_toResource (document : Document) (file root : Path) :
    (document.toResource file root).withoutUsages = (document.extraction file root).resource := by
  rw [toResource, Extraction.withUsages, Resource.withoutUsages_foldl_addUse]
  exact Resource.withoutUsages_eq_self _ fun _ _ => Extraction.usages_at?_extract rfl

/-- The containers of a document and its resources stand at the same paths, and what every container gives
to the resource that is read from it holds between them, if neither marks nor usages count for it. -/
theorem rel_at?_of_read {P : Container → Resource → Prop} (document : Document) (file root : Path)
    (hread : ∀ (c : Container) (header : Resource), header.span? = c.owner?.map (·.node.span) →
      P c (c.read document.text header).resource)
    (hmark : ∀ c r names, P c r → P c (r.markExported names))
    (husages : ∀ c r, P c r.withoutUsages → P c r) (path : List Nat) :
    Option.Rel P (document.container.at? document.text path)
      ((document.toResource file root).at? path) := by
  have hrel : Option.Rel P (document.container.at? document.text path)
      ((document.container.read document.text (.ofFile file root)).resource.at? path) :=
    Container.rel_at?_of_read hread hmark path document.container (.ofFile file root) rfl
  rw [← Container.read_document, ← withoutUsages_toResource, Resource.at?_withoutUsages] at hrel
  generalize document.container.at? document.text path = c? at hrel ⊢
  generalize (document.toResource file root).at? path = r? at hrel ⊢
  cases r? with
  | none =>
      cases hrel with
      | none => exact .none
  | some r =>
      cases hrel with
      | some hholds => exact .some (husages _ r hholds)

/-- Each resource holds what its container gives. -/
theorem rel_at?_toResource (document : Document) (file root : Path) (path : List Nat) :
    Option.Rel (Container.Holds document.text) (document.container.at? document.text path)
      ((document.toResource file root).at? path) :=
  document.rel_at?_of_read file root (fun _ _ => Container.holds_read)
    (fun _ _ names hholds => hholds.markExported names) (fun _ _ hholds => hholds.of_withoutUsages) path

end Document

end ExportIndex
