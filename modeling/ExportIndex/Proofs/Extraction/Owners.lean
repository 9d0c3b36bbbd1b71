import ExportIndex.Proofs.Extraction.Openings
import ExportIndex.Usage
import Mathlib.Data.List.Nodup

/-!
# Owners

The owners of an extraction and its nested resources belong together one to one: each owner leads to
the resource that was read at its site, and each nested resource, at any depth, has one owner.
-/

namespace ExportIndex

/-! ## Reading openings -/

/-- The extraction of what an opening opens. -/
def Opening.read (source : String) (o : Opening) : Extraction :=
  match o.body? with
  | some body => body.extract source o.header o.exportsMembers
  | none => ⟨o.header, []⟩

/-- The part that a piece contributes. -/
def Piece.read (source : String) : Piece → Part
  | importing i => .importing i
  | declaring d => .declaring d
  | exporting e => .exporting e
  | opening o => .nesting o.site.address (o.read source)

theorem Opening.read_of_body {source : String} {o : Opening} {body : Site}
    (h : o.body? = some body) : o.read source = body.extract source o.header o.exportsMembers := by
  rw [read, h]

theorem Opening.read_of_none {source : String} {o : Opening} (h : o.body? = none) :
    o.read source = ⟨o.header, []⟩ := by
  rw [read, h]

namespace Site

variable {source : String} {header : Resource} {exportsMembers : Bool} {body : Site}

/-- How a body is read, without the proofs that reading ends. -/
theorem extract_eq (source : String) (header : Resource) (exportsMembers : Bool) (body : Site) :
    body.extract source header exportsMembers =
      .ofParts header ((body.bodyPieces source exportsMembers).map (Piece.read source)) := by
  rw [extract]
  congr 1
  conv_rhs => rw [← List.attach_map_subtype_val (body.bodyPieces source exportsMembers)]
  rw [List.map_map]
  refine List.map_congr_left fun ⟨piece, hpiece⟩ _ => ?_
  cases piece with
  | opening o =>
      simp only [Function.comp_apply, Piece.read, Part.nesting.injEq, true_and]
      split
      next inner hinner => rw [Opening.read_of_body hinner]
      next hinner => rw [Opening.read_of_none hinner]
  | _ => rfl

/-- What an opening adds to the owners and to the nested resources of a body. -/
def nestedPart (source : String) (o : Opening) : Address × Extraction :=
  (o.site.address, o.read source)

theorem filterMap_nested?_read (pieces : List Piece) :
    (pieces.map (Piece.read source)).filterMap Part.nested? =
      (pieces.filterMap Piece.opening?).map (nestedPart source) := by
  rw [List.filterMap_map, List.map_filterMap]
  refine List.filterMap_congr fun piece _ => ?_
  cases piece <;> rfl

theorem owners_extract : (body.extract source header exportsMembers).owners =
    ((body.openings source exportsMembers).map (nestedPart source)).zipIdx.flatMap
      fun ((address, inner), index) =>
        (address, [index]) :: inner.owners.map fun (below, path) => (below, index :: path) := by
  rw [extract_eq, Extraction.ofParts, ownersOfParts, filterMap_nested?_read, openings]

theorem resources_extract (source : String) (header : Resource) (exportsMembers : Bool)
    (body : Site) : ∃ names, (body.extract source header exportsMembers).resource.resources =
    (body.openings source exportsMembers).map fun o =>
      (o.read source).resource.markExported names := by
  rw [extract_eq, Extraction.ofParts, Resource.ofParts]
  simp only [filterMap_nested?_read, List.map_map]
  exact ⟨_, rfl⟩

theorem usages_extract : (body.extract source header exportsMembers).resource.usages =
    header.usages := by
  rw [extract_eq]
  rfl

theorem span?_extract : (body.extract source header exportsMembers).resource.span? =
    header.span? := by
  rw [extract_eq]
  rfl

theorem mem_owners_extract_iff {address : Address} {path : List Nat} :
    (address, path) ∈ (body.extract source header exportsMembers).owners ↔ ∃ index o,
      (body.openings source exportsMembers)[index]? = some o ∧
        (address = o.site.address ∧ path = [index] ∨
          ∃ rest, path = index :: rest ∧ (address, rest) ∈ (o.read source).owners) := by
  rw [owners_extract, List.mem_flatMap]
  constructor
  · rintro ⟨⟨⟨above, inner⟩, index⟩, hmem, hin⟩
    rw [List.mem_zipIdx_iff_getElem?, List.getElem?_map, Option.map_eq_some_iff] at hmem
    obtain ⟨o, ho, heq⟩ := hmem
    obtain ⟨rfl, rfl⟩ := Prod.mk.inj heq
    refine ⟨index, o, ho, ?_⟩
    simpa [eq_comm, and_comm] using hin
  · rintro ⟨index, o, ho, hpath⟩
    refine ⟨(nestedPart source o, index), ?_, ?_⟩
    · rw [List.mem_zipIdx_iff_getElem?, List.getElem?_map, ho, Option.map_some]
    · simpa [nestedPart, eq_comm, and_comm] using hpath

/-! ## Nested resources -/

end Site

namespace Resource

/-- Only the resource itself is marked as exported, not what is nested in it. -/
theorem at?_markExported {path : List Nat} (h : path ≠ []) (names : List String) (r : Resource) :
    at? path (r.markExported names) = at? path r := by
  obtain ⟨index, rest, rfl⟩ := List.exists_cons_of_ne_nil h
  unfold markExported
  split <;> rfl

@[simp] theorem usages_markExported (names : List String) (r : Resource) :
    (r.markExported names).usages = r.usages := by
  unfold markExported
  split <;> rfl

@[simp] theorem span?_markExported (names : List String) (r : Resource) :
    (r.markExported names).span? = r.span? := by
  unfold markExported
  split <;> rfl

end Resource

namespace Opening

variable {source : String} {o : Opening}

theorem owners_read_of_none (h : o.body? = none) : (o.read source).owners = [] := by
  rw [read_of_none h]

theorem at?_read_of_none (h : o.body? = none) {path : List Nat} (hpath : path ≠ []) :
    (o.read source).resource.at? path = none := by
  obtain ⟨index, rest, rfl⟩ := List.exists_cons_of_ne_nil hpath
  rw [read_of_none h]
  rfl

theorem usages_read : (o.read source).resource.usages = .empty := by
  unfold read
  split
  · exact Site.usages_extract
  · rfl

theorem span?_read : (o.read source).resource.span? = some o.site.node.span := by
  unfold read
  split
  · exact Site.span?_extract
  · rfl

end Opening

/-- A nested resource is what an opening at a site holds, as it was read there; only the statements
around it may have marked it as exported. -/
def Site.Built (source : String) (site : Site) (nested : Resource) : Prop :=
  ∃ o : Opening, o.StandsFor source ∧ o.site = site ∧
    ∃ names, nested = (o.read source).resource.markExported names

theorem Site.Built.usages_eq {source : String} {site : Site} {nested : Resource}
    (h : site.Built source nested) : nested.usages = .empty := by
  obtain ⟨o, -, -, names, rfl⟩ := h
  rw [Resource.usages_markExported, Opening.usages_read]

theorem Site.Built.span?_eq {source : String} {site : Site} {nested : Resource}
    (h : site.Built source nested) : nested.span? = some site.node.span := by
  obtain ⟨o, -, rfl, names, rfl⟩ := h
  rw [Resource.span?_markExported, Opening.span?_read]

namespace Site

variable {source : String} {header : Resource}

/-- The resource that a body holds at the place of one of its openings. -/
theorem at?_extract (header : Resource) {exportsMembers : Bool} {body : Site} {index : Nat} {o : Opening}
    (h : (body.openings source exportsMembers)[index]? = some o) : ∃ names, ∀ rest,
      (body.extract source header exportsMembers).resource.at? (index :: rest) =
        ((o.read source).resource.markExported names).at? rest := by
  obtain ⟨names, hresources⟩ := resources_extract source header exportsMembers body
  refine ⟨names, fun rest => ?_⟩
  rw [Resource.at?, hresources, List.getElem?_map, h, Option.map_some, Option.bind_some]

/-- Each owner is a site below the body, and leads to the resource that was read there. -/
theorem built_of_mem_owners {exportsMembers : Bool} {body : Site} {address : Address}
    {path : List Nat} (h : (address, path) ∈ (body.extract source header exportsMembers).owners) :
    path ≠ [] ∧ ∃ site, body.Below site ∧ site.address = address ∧
      ∃ nested, (body.extract source header exportsMembers).resource.at? path = some nested ∧
        site.Built source nested := by
  induction exportsMembers, body using bodies_induction source generalizing header address path with
  | step exportsMembers body ih =>
      obtain ⟨index, o, ho, hcases⟩ := mem_owners_extract_iff.mp h
      obtain ⟨names, hat⟩ := at?_extract header ho
      have hmem := List.mem_of_getElem? ho
      have hstands := standsFor_of_mem_openings hmem
      have hbelow := below_of_mem_openings hmem
      rcases hcases with ⟨rfl, rfl⟩ | ⟨rest, rfl, hrest⟩
      · exact ⟨List.cons_ne_nil _ _, o.site, hbelow, rfl, _, hat [], o, hstands, rfl, names, rfl⟩
      · cases hbody : o.body? with
        | none => simp [Opening.owners_read_of_none hbody] at hrest
        | some inner =>
            rw [Opening.read_of_body hbody] at hrest hat
            obtain ⟨hne, site, hsite, haddress, nested, hnested, hbuilt⟩ := ih o hmem inner hbody hrest
            refine ⟨List.cons_ne_nil _ _, site, ?_, haddress, nested, ?_, hbuilt⟩
            · exact hbelow.trans (.head (hstands.body_mem hbody) hsite)
            · rw [hat, Resource.at?_markExported hne, hnested]

/-- Each nested resource, at any depth, has exactly one owner. -/
theorem existsUnique_owner {exportsMembers : Bool} {body : Site} {path : List Nat}
    {nested : Resource} (hpath : path ≠ [])
    (h : (body.extract source header exportsMembers).resource.at? path = some nested) :
    ∃! address, (address, path) ∈ (body.extract source header exportsMembers).owners := by
  induction exportsMembers, body using bodies_induction source generalizing header path with
  | step exportsMembers body ih =>
      obtain ⟨index, rest, rfl⟩ := List.exists_cons_of_ne_nil hpath
      obtain ⟨o, ho⟩ : ∃ o, (body.openings source exportsMembers)[index]? = some o := by
        obtain ⟨names, hresources⟩ := resources_extract source header exportsMembers body
        obtain ⟨found, hfound, -⟩ := Option.bind_eq_some_iff.mp h
        rw [hresources, List.getElem?_map] at hfound
        obtain ⟨o, ho, -⟩ := Option.map_eq_some_iff.mp hfound
        exact ⟨o, ho⟩
      obtain ⟨names, hat⟩ := at?_extract header ho
      have hmem := List.mem_of_getElem? ho
      -- an owner of this place is the opening itself or an owner of the same place inside it
      have howner {address : Address} :
          (address, index :: rest) ∈ (body.extract source header exportsMembers).owners ↔
            address = o.site.address ∧ rest = [] ∨ (address, rest) ∈ (o.read source).owners := by
        rw [mem_owners_extract_iff]
        constructor
        · rintro ⟨position, other, hother, ⟨heq, hnil⟩ | ⟨rest', hrest, hin⟩⟩
          · obtain ⟨rfl, rfl⟩ := List.cons.inj hnil
            obtain rfl := Option.some.inj (ho.symm.trans hother)
            exact .inl ⟨heq, rfl⟩
          · obtain ⟨rfl, rfl⟩ := List.cons.inj hrest
            obtain rfl := Option.some.inj (ho.symm.trans hother)
            exact .inr hin
        · rintro (⟨heq, rfl⟩ | hin)
          · exact ⟨index, o, ho, .inl ⟨heq, rfl⟩⟩
          · exact ⟨index, o, ho, .inr ⟨rest, rfl, hin⟩⟩
      simp only [howner]
      cases hbody : o.body? with
      | none =>
          rw [hat] at h
          have hrest : rest = [] := by
            by_contra hne
            rw [Resource.at?_markExported hne, Opening.at?_read_of_none hbody hne] at h
            cases h
          refine ⟨o.site.address, .inl ⟨rfl, hrest⟩, ?_⟩
          rintro address (⟨heq, -⟩ | hin)
          · exact heq
          · simp [Opening.owners_read_of_none hbody] at hin
      | some inner =>
          rw [Opening.read_of_body hbody] at hat
          simp only [Opening.read_of_body hbody]
          by_cases hrest : rest = []
          · refine ⟨o.site.address, .inl ⟨rfl, hrest⟩, ?_⟩
            rintro address (⟨heq, -⟩ | hin)
            · exact heq
            · exact absurd hrest (built_of_mem_owners hin).1
          · rw [hat, Resource.at?_markExported hrest] at h
            obtain ⟨address, hin, hunique⟩ := ih o hmem inner hbody hrest h
            refine ⟨address, .inr hin, ?_⟩
            rintro other (⟨-, hnil⟩ | hother)
            · exact absurd hnil hrest
            · exact hunique other hother

theorem addresses_owners_extract {exportsMembers : Bool} {body : Site} :
    (body.extract source header exportsMembers).owners.map Prod.fst =
      (body.openings source exportsMembers).flatMap fun o =>
        o.site.address :: (o.read source).owners.map Prod.fst := by
  rw [owners_extract, List.map_flatMap, List.zipIdx_map, List.flatMap_map]
  -- the positions do not matter for the addresses
  conv_rhs => rw [← List.zipIdx_map_fst 0 (body.openings source exportsMembers), List.flatMap_map]
  refine List.flatMap_congr fun ⟨o, index⟩ _ => ?_
  simp [nestedPart, Function.comp_def]

/-- No site is an owner twice. -/
theorem nodup_addresses_owners {exportsMembers : Bool} {body : Site} :
    ((body.extract source header exportsMembers).owners.map Prod.fst).Nodup := by
  induction exportsMembers, body using bodies_induction source generalizing header with
  | step exportsMembers body ih =>
      rw [addresses_owners_extract, List.nodup_flatMap]
      -- every owner inside an opening stands below its site
      have hbelow : ∀ o ∈ body.openings source exportsMembers,
          ∀ address ∈ (o.read source).owners.map Prod.fst,
            ∃ site, o.site.Below site ∧ site.address = address := by
        intro o ho address haddress
        obtain ⟨⟨_, path⟩, hin, rfl⟩ := List.mem_map.mp haddress
        cases hbody : o.body? with
        | none => simp [Opening.owners_read_of_none hbody] at hin
        | some inner =>
            rw [Opening.read_of_body hbody] at hin
            obtain ⟨-, site, hsite, heq, -⟩ := built_of_mem_owners hin
            exact ⟨site, .head ((standsFor_of_mem_openings ho).body_mem hbody) hsite, heq⟩
      constructor
      · intro o ho
        refine List.nodup_cons.mpr ⟨fun hmem => ?_, ?_⟩
        · obtain ⟨site, hsite, heq⟩ := hbelow o ho _ hmem
          exact (Below.suffix hsite).2 heq.symm
        · cases hbody : o.body? with
          | none => simp [Opening.owners_read_of_none hbody]
          | some inner =>
              rw [Opening.read_of_body hbody]
              exact ih o ho inner hbody
      · refine (pairwise_openings source exportsMembers body).imp_of_mem ?_
        intro o other ho hother hapart address hin hin'
        have hunder : ∀ opening ∈ body.openings source exportsMembers,
            address ∈ opening.site.address :: (opening.read source).owners.map Prod.fst →
              ∃ site, opening.site.Under site ∧ site.address = address := by
          intro opening hopening hmem
          rcases List.mem_cons.mp hmem with rfl | hmem
          · exact ⟨opening.site, .refl, rfl⟩
          · obtain ⟨site, hsite, heq⟩ := hbelow opening hopening address hmem
            exact ⟨site, hsite.to_reflTransGen, heq⟩
        obtain ⟨first, hfirst, heq⟩ := hunder o ho hin
        obtain ⟨second, hsecond, heq'⟩ := hunder other hother hin'
        exact hapart first second hfirst hsecond (heq.trans heq'.symm)

end Site

theorem lookup_eq_some_iff_mem {owners : List (Address × List Nat)}
    (hnodup : (owners.map Prod.fst).Nodup) {address : Address} {path : List Nat} :
    owners.lookup address = some path ↔ (address, path) ∈ owners := by
  have hmem {found : List Nat} (h : owners.lookup address = some found) :
      (address, found) ∈ owners := by
    obtain ⟨before, after, hsplit, -⟩ := List.lookup_eq_some_iff.mp h
    rw [hsplit]
    exact List.mem_append_right _ List.mem_cons_self
  refine ⟨hmem, fun h => ?_⟩
  cases hlookup : owners.lookup address with
  | none => simpa using List.lookup_eq_none_iff.mp hlookup _ h
  | some found =>
      exact congrArg some (Prod.mk.inj (List.inj_on_of_nodup_map hnodup (hmem hlookup) h rfl)).2

end ExportIndex
