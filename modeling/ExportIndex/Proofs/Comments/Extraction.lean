import ExportIndex.Proofs.Comments.Sites
import ExportIndex.Proofs.Extraction.Owners

/-!
# Reading without comments

A body is read into the same resource without comments, and its owners are the same sites at their
new places.
-/

namespace ExportIndex

/-- The opening in the tree without comments. -/
def Opening.withoutComments (o : Opening) : Opening :=
  { o with
    site := o.site.withoutComments
    body? := o.body?.map Site.withoutComments }

/-- What a statement contributes in the tree without comments. -/
def Piece.withoutComments : Piece → Piece
  | opening o => opening o.withoutComments
  | importing i => importing i
  | declaring d => declaring d
  | exporting e => exporting e

theorem Opening.header_withoutComments (o : Opening) : o.withoutComments.header = o.header := by
  simp [header, withoutComments]

namespace Site

variable {source : String} {site : Site}

/-! ## Statements -/

theorem opening?_withoutComments {exported ambient : Bool} (h : site.node.Tidy) :
    site.withoutComments.opening? source exported ambient =
      (site.opening? source exported ambient).map Opening.withoutComments := by
  rw [opening?, opening?, node_withoutComments, Node.field?_withoutComments h, Option.map_map,
    Option.map_map, field?_withoutComments h]
  exact Option.map_congr fun name _ => by simp [Opening.withoutComments]

theorem globalOpening?_withoutComments (site : Site) :
    site.withoutComments.globalOpening? = site.globalOpening?.map Opening.withoutComments := by
  rw [globalOpening?, globalOpening?, childOfKind?_withoutComments site (by decide), Option.map_map,
    Option.map_map]
  rfl

theorem constructPieces_withoutComments {exported ambient : Bool} (h : site.node.Tidy) :
    site.withoutComments.constructPieces source exported ambient =
      (site.constructPieces source exported ambient).map Piece.withoutComments := by
  rw [constructPieces, constructPieces, node_withoutComments, Node.kind_withoutComments,
    opening?_withoutComments h, Node.declarations_withoutComments h]
  split
  · rw [Option.toList_map, List.map_map, List.map_map]
    rfl
  · rw [List.map_map]
    rfl

theorem ambientPieces_withoutComments {exported : Bool} (h : site.node.Tidy)
    (hkind : site.node.kind = "ambient_declaration") :
    site.withoutComments.ambientPieces source exported =
      (site.ambientPieces source exported).map Piece.withoutComments := by
  have hleading : site.node.kind ∈ leadingKinds := by rw [hkind]; decide
  rw [ambientPieces, ambientPieces, node_withoutComments,
    Node.hasToken_withoutComments site.node (by decide), globalOpening?_withoutComments,
    head?_namedChildren_withoutComments h hleading]
  split
  · rw [Option.toList_map, List.map_map, List.map_map]
    rfl
  · cases hinner : site.namedChildren.head? with
    | none => rfl
    | some inner =>
        have hmem := mem_children_of_mem_namedChildren (List.mem_of_mem_head? hinner)
        exact constructPieces_withoutComments (tidy_of_mem_children h hmem)

theorem defaultPiece_withoutComments {span : Span} {value : Node} (h : value.Tidy) :
    defaultPiece source span value.withoutComments =
      (defaultPiece source span value).withoutComments := by
  rw [defaultPiece, defaultPiece, Node.kind_withoutComments, Node.text_withoutComments,
    Node.defaultExport_withoutComments h]
  split <;> rfl

theorem exportPieces_withoutComments (h : site.node.Tidy) :
    site.withoutComments.exportPieces source =
      (site.exportPieces source).map Piece.withoutComments := by
  rw [exportPieces, exportPieces, field?_withoutComments h, node_withoutComments,
    Node.hasToken_withoutComments site.node (by decide), Node.field?_withoutComments h,
    Node.export?_withoutComments h, Node.span_withoutComments]
  cases hdeclaration : site.field? "declaration" with
  | some declaration =>
      have hdeclaration := tidy_of_mem_children h (mem_children_of_field? hdeclaration)
      simp only [Option.map_some, node_withoutComments, Node.kind_withoutComments,
        Node.defaultExport_withoutComments hdeclaration]
      split
      · rfl
      · split
        next hkind => exact ambientPieces_withoutComments hdeclaration hkind
        next => exact constructPieces_withoutComments hdeclaration
  | none =>
      cases hvalue : site.node.field? "value" with
      | some value =>
          simp only [Option.map_some, Option.map_none, List.map_cons, List.map_nil,
            defaultPiece_withoutComments (h.of_field? hvalue)]
      | none =>
          simp only [Option.map_none, List.map_map]
          rfl

theorem pieces_withoutComments {exportsMembers : Bool} (h : site.node.Tidy) :
    site.withoutComments.pieces source exportsMembers =
      (site.pieces source exportsMembers).map Piece.withoutComments := by
  unfold pieces
  rw [node_withoutComments, Node.kind_withoutComments]
  split
  · rw [Node.imports_withoutComments h, List.map_map]
    rfl
  · exact exportPieces_withoutComments h
  · rw [childOfKind?_withoutComments site (by decide)]
    cases hinner : site.childOfKind? "internal_module" with
    | none => rfl
    | some inner =>
        exact constructPieces_withoutComments
          (tidy_of_mem_children h (mem_children_of_childOfKind? hinner))
  next hkind => exact ambientPieces_withoutComments h hkind
  · exact constructPieces_withoutComments h

theorem pieces_of_comment {exportsMembers : Bool} (hkind : site.node.kind = "comment") :
    site.pieces source exportsMembers = [] := by
  have hdeclarations : site.node.declarations source exportsMembers = [] := by
    unfold Node.declarations
    split <;> simp_all
  have hconstruct : site.constructPieces source exportsMembers false = [] := by
    rw [constructPieces, if_neg (by rw [hkind]; decide), hdeclarations, List.map_nil]
  unfold pieces
  split <;> simp_all

theorem bodyPieces_withoutComments {exportsMembers : Bool} {body : Site} (h : body.node.Tidy) :
    body.withoutComments.bodyPieces source exportsMembers =
      (body.bodyPieces source exportsMembers).map Piece.withoutComments := by
  rw [bodyPieces, bodyPieces, List.map_flatMap, namedChildren_withoutComments]
  refine flatMap_map_filter (fun statement hstatement _ => ?_) fun statement _ hleft => ?_
  · exact pieces_withoutComments
      (tidy_of_mem_children h (mem_children_of_mem_namedChildren hstatement))
  · rw [pieces_of_comment (by simpa using hleft), List.map_nil]

theorem openings_withoutComments {exportsMembers : Bool} {body : Site} (h : body.node.Tidy) :
    body.withoutComments.openings source exportsMembers =
      (body.openings source exportsMembers).map Opening.withoutComments := by
  rw [openings, openings, bodyPieces_withoutComments h, List.filterMap_map, List.map_filterMap]
  exact List.filterMap_congr fun piece _ => by cases piece <;> rfl

end Site

/-! ## Resources -/

/-- A resource is made of what its parts contribute, whoever owns it. -/
theorem Resource.ofParts_congr {header : Resource} {parts others : List Part}
    (himports : parts.filterMap Part.import? = others.filterMap Part.import?)
    (hdeclarations : parts.filterMap Part.declaration? = others.filterMap Part.declaration?)
    (hexports : parts.filterMap Part.export? = others.filterMap Part.export?)
    (hnested : (parts.filterMap Part.nested?).map (·.2.resource) =
      (others.filterMap Part.nested?).map (·.2.resource)) :
    ofParts header parts = ofParts header others := by
  simp only [ofParts, himports, hdeclarations, hexports, hnested]

namespace Site

variable {source : String}

theorem tidy_body_of_mem_openings {exportsMembers : Bool} {body inner : Site} {o : Opening}
    (h : body.node.Tidy) (ho : o ∈ body.openings source exportsMembers)
    (hinner : o.body? = some inner) : inner.node.Tidy :=
  tidy_of_mem_children (Under.tidy h (below_of_mem_openings ho).to_reflTransGen)
    ((standsFor_of_mem_openings ho).body_mem hinner)

theorem read_withoutComments_of_body {o : Opening} {inner : Site} (hinner : o.body? = some inner) :
    o.withoutComments.read source =
      inner.withoutComments.extract source o.header o.exportsMembers := by
  have hbody : o.withoutComments.body? = some inner.withoutComments := by
    rw [Opening.withoutComments, hinner, Option.map_some]
  rw [Opening.read_of_body hbody, Opening.header_withoutComments]
  rfl

theorem read_withoutComments_of_none {o : Opening} (hnone : o.body? = none) :
    o.withoutComments.read source = ⟨o.header, []⟩ := by
  have hbody : o.withoutComments.body? = none := by
    rw [Opening.withoutComments, hnone, Option.map_none]
  rw [Opening.read_of_none hbody, Opening.header_withoutComments]

/-- What does not look at owners sees the same parts. -/
theorem filterMap_read_withoutComments {α : Type} {exportsMembers : Bool} {body : Site}
    {view? : Part → Option α} (h : body.node.Tidy)
    (hview : ∀ piece : Piece, view? (piece.withoutComments.read source) = view? (piece.read source)) :
    ((body.withoutComments.bodyPieces source exportsMembers).map (Piece.read source)).filterMap view? =
      ((body.bodyPieces source exportsMembers).map (Piece.read source)).filterMap view? := by
  rw [bodyPieces_withoutComments h, List.map_map, List.filterMap_map, List.filterMap_map]
  exact List.filterMap_congr fun piece _ => hview piece

theorem resource_extract_withoutComments {exportsMembers : Bool} {body : Site} {header : Resource}
    (h : body.node.Tidy) :
    (body.withoutComments.extract source header exportsMembers).resource =
      (body.extract source header exportsMembers).resource := by
  induction exportsMembers, body using bodies_induction source generalizing header with
  | step exportsMembers body ih =>
      have hread : ∀ o ∈ body.openings source exportsMembers,
          (o.withoutComments.read source).resource = (o.read source).resource := by
        intro o ho
        cases hinner : o.body? with
        | none => rw [read_withoutComments_of_none hinner, Opening.read_of_none hinner]
        | some inner =>
            rw [read_withoutComments_of_body hinner, Opening.read_of_body hinner]
            exact ih o ho inner hinner (tidy_body_of_mem_openings h ho hinner)
      rw [extract_eq, extract_eq]
      refine Resource.ofParts_congr ?_ ?_ ?_ ?_
      · exact filterMap_read_withoutComments h fun piece => by cases piece <;> rfl
      · exact filterMap_read_withoutComments h fun piece => by cases piece <;> rfl
      · exact filterMap_read_withoutComments h fun piece => by cases piece <;> rfl
      · rw [filterMap_nested?_read, filterMap_nested?_read, ← openings, ← openings,
          openings_withoutComments h, List.map_map, List.map_map, List.map_map]
        exact List.map_congr_left hread

/-! ## Owners -/

variable {exportsMembers : Bool} {body : Site} {header : Resource}

/-- The owners are the same sites, at their places without comments. -/
theorem mem_owners_withoutComments {address : Address} {path : List Nat} (h : body.node.Tidy) :
    (address, path) ∈ (body.withoutComments.extract source header exportsMembers).owners ↔
      ∃ site, body.Under site ∧ site.withoutComments.address = address ∧
        (site.address, path) ∈ (body.extract source header exportsMembers).owners := by
  induction exportsMembers, body using bodies_induction source generalizing header address path with
  | step exportsMembers body ih =>
      simp only [mem_owners_extract_iff, openings_withoutComments h, List.getElem?_map,
        Option.map_eq_some_iff]
      constructor
      · rintro ⟨index, _, ⟨o, ho, rfl⟩, hcases⟩
        have hmem := List.mem_of_getElem? ho
        have hunder := (below_of_mem_openings hmem).to_reflTransGen
        rcases hcases with ⟨rfl, rfl⟩ | ⟨rest, rfl, hin⟩
        · exact ⟨o.site, hunder, rfl, index, o, ho, .inl ⟨rfl, rfl⟩⟩
        · cases hinner : o.body? with
          | none =>
              rw [read_withoutComments_of_none hinner] at hin
              cases hin
          | some inner =>
              rw [read_withoutComments_of_body hinner] at hin
              obtain ⟨site, hsite, rfl, howns⟩ :=
                (ih o hmem inner hinner (tidy_body_of_mem_openings h hmem hinner)).mp hin
              have hbody := (standsFor_of_mem_openings hmem).body_mem hinner
              refine ⟨site, (hunder.tail hbody).trans hsite, rfl, index, o, ho, .inr ⟨rest, rfl, ?_⟩⟩
              rw [Opening.read_of_body hinner]
              exact howns
      · rintro ⟨site, hsite, rfl, index, o, ho, hcases⟩
        have hmem := List.mem_of_getElem? ho
        have hunder := (below_of_mem_openings hmem).to_reflTransGen
        refine ⟨index, o.withoutComments, ⟨o, ho, rfl⟩, ?_⟩
        rcases hcases with ⟨heq, rfl⟩ | ⟨rest, rfl, hin⟩
        · obtain rfl := Under.eq_of_address hsite hunder heq
          exact .inl ⟨rfl, rfl⟩
        · refine .inr ⟨rest, rfl, ?_⟩
          cases hinner : o.body? with
          | none =>
              rw [Opening.read_of_none hinner] at hin
              cases hin
          | some inner =>
              rw [Opening.read_of_body hinner] at hin
              rw [read_withoutComments_of_body hinner]
              refine (ih o hmem inner hinner (tidy_body_of_mem_openings h hmem hinner)).mpr ?_
              -- the owner inside the opening is the site itself
              obtain ⟨-, inside, hinside, heq, -⟩ := built_of_mem_owners hin
              have hbody := (standsFor_of_mem_openings hmem).body_mem hinner
              have hinside := hinside.to_reflTransGen
              obtain rfl := Under.eq_of_address ((hunder.tail hbody).trans hinside) hsite heq
              exact ⟨inside, hinside, rfl, hin⟩

/-- An owner is no comment. -/
theorem reaches_of_mem_owners {site : Site} {path : List Nat} (h : body.node.Tidy)
    (hsite : body.Under site)
    (howns : (site.address, path) ∈ (body.extract source header exportsMembers).owners) :
    body.Reaches site := by
  obtain ⟨-, owner, howner, heq, -, -, o, hstands, rfl, -⟩ := built_of_mem_owners howns
  obtain rfl := Under.eq_of_address howner.to_reflTransGen hsite heq
  exact (Under.reaches_or_childless h hsite).resolve_right hstands.children_ne_nil

theorem lookup_owners_withoutComments {site : Site} (h : body.node.Tidy) (hsite : body.Reaches site) :
    (body.withoutComments.extract source header exportsMembers).owners.lookup
        site.withoutComments.address =
      (body.extract source header exportsMembers).owners.lookup site.address := by
  refine Option.ext fun path => ?_
  rw [lookup_eq_some_iff_mem nodup_addresses_owners, lookup_eq_some_iff_mem nodup_addresses_owners,
    mem_owners_withoutComments h]
  constructor
  · rintro ⟨owner, howner, heq, howns⟩
    obtain rfl := Reaches.eq_of_address (reaches_of_mem_owners h howner howns) hsite heq
    exact howns
  · exact fun howns => ⟨site, Reaches.under hsite, rfl, howns⟩

/-- The way up to the nearest owner is the same without comments. -/
theorem ownerAbove_withoutComments {site : Site} (h : body.node.Tidy) (hroot : body.address = [])
    (hsite : body.Reaches site) :
    ownerAbove (body.withoutComments.extract source header exportsMembers).owners
        site.withoutComments.address =
      ownerAbove (body.extract source header exportsMembers).owners site.address := by
  induction hsite with
  | refl =>
      have hroot' : body.withoutComments.address = [] := by
        rw [withoutComments, hroot, List.zipWith_nil_right]
      rw [hroot, hroot', ownerAbove, ownerAbove]
  | @tail parent child hparent hstep ih =>
      obtain ⟨index, hindex⟩ := exists_address_of_mem_children hstep.1
      obtain ⟨position, hposition⟩ := exists_address_withoutComments hstep.1
      rw [hindex, hposition, ownerAbove, ownerAbove, lookup_owners_withoutComments h hparent, ih]

end Site

end ExportIndex
