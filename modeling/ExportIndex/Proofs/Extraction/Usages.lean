import ExportIndex.Proofs.Collections.NameSets
import ExportIndex.Proofs.Extraction.Owners
import ExportIndex.SourceFile
import Mathlib.Data.List.Induction

/-!
# Where usages go

Collecting the names that a document uses adds them to its resources and changes nothing else. Each
name goes to the innermost resource around it, that of the nearest owner above the site that uses
it.
-/

namespace ExportIndex

/-! ## Changing nested resources -/

namespace Resource

/-- The resource without its usages, at every level. -/
def withoutUsages (r : Resource) : Resource :=
  { r with
    usages := .empty
    resources := r.resources.map fun nested => nested.withoutUsages }
termination_by r
decreasing_by exact sizeOf_nested ‹_›

theorem resources_withoutUsages (r : Resource) :
    r.withoutUsages.resources = r.resources.map withoutUsages := by
  rw [withoutUsages]

theorem declarations_withoutUsages (r : Resource) :
    r.withoutUsages.declarations = r.declarations := by
  rw [withoutUsages]

theorem exports_withoutUsages (r : Resource) : r.withoutUsages.exports = r.exports := by
  rw [withoutUsages]

theorem at?_withoutUsages (path : List Nat) (r : Resource) :
    r.withoutUsages.at? path = (r.at? path).map withoutUsages := by
  induction path generalizing r with
  | nil => rfl
  | cons index rest ih =>
      rw [at?, at?, resources_withoutUsages, List.getElem?_map]
      cases r.resources[index]? with
      | none => rfl
      | some nested => exact ih nested

theorem withoutUsages_eq_self (r : Resource)
    (h : ∀ path nested, r.at? path = some nested → nested.usages = .empty) :
    r.withoutUsages = r := by
  have hnested : ∀ nested ∈ r.resources, nested.withoutUsages = nested := by
    intro nested hmem
    obtain ⟨index, hindex⟩ := List.getElem?_of_mem hmem
    refine withoutUsages_eq_self nested fun path found hfound => h (index :: path) found ?_
    rw [at?, hindex, Option.bind_some, hfound]
  rw [withoutUsages, List.map_congr_left hnested, List.map_id', ← h [] r rfl]
  cases r
  rfl
termination_by r
decreasing_by exact sizeOf_nested hmem

variable {change : Resource → Resource}

theorem withoutUsages_modifyAt (h : ∀ r, (change r).withoutUsages = r.withoutUsages)
    (path : List Nat) (r : Resource) : (modifyAt change path r).withoutUsages = r.withoutUsages := by
  induction path generalizing r with
  | nil => exact h r
  | cons index rest ih =>
      have hresources : (r.resources.modify index (modifyAt change rest)).map withoutUsages =
          r.resources.map withoutUsages := by
        refine List.ext_getElem? fun position => ?_
        rw [List.getElem?_map, List.getElem?_map, List.getElem?_modify]
        cases r.resources[position]? with
        | none => rfl
        | some nested =>
            simp only [Functor.map, Option.map_some, Option.some.injEq]
            split
            · exact ih nested
            · rfl
      rw [modifyAt]
      split
      · rw [withoutUsages, withoutUsages, hresources]
      · exact h r

/-- A change that leaves nested resources alone is seen at the place that is changed and nowhere
else. -/
theorem usages_modifyAt (h : ∀ r, (change r).resources = r.resources) (path : List Nat)
    {place : List Nat} {r : Resource} (hplace : (r.at? place).isSome) :
    ((modifyAt change place r).at? path).map usages =
      (r.at? path).map fun found => if path = place then (change found).usages else found.usages := by
  induction place generalizing path r with
  | nil =>
      cases path with
      | nil => rfl
      | cons position rest =>
          rw [modifyAt, at?, at?, h]
          rfl
  | cons index inner ih =>
      obtain ⟨nested, hnested, hinner⟩ : ∃ nested, r.resources[index]? = some nested ∧
          (nested.at? inner).isSome := by
        rw [at?] at hplace
        cases hfound : r.resources[index]? with
        | none => simp [hfound] at hplace
        | some nested => exact ⟨nested, rfl, by simpa [hfound] using hplace⟩
      have hlt : index < r.resources.length := (List.getElem?_eq_some_iff.mp hnested).1
      rw [modifyAt, if_pos hlt]
      cases path with
      | nil => rfl
      | cons position rest =>
          rw [at?, at?, List.getElem?_modify]
          by_cases heq : index = position
          · subst heq
            simpa [hnested] using ih rest hinner
          · have hne : ¬ position = index := fun h => heq h.symm
            simp [heq, hne]

/-! ## Collecting -/

section Collecting

variable {source : String} {owners : List (Address × List Nat)}

theorem withoutUsages_addUse (r : Resource) (site : Site) :
    (r.addUse source owners site).withoutUsages = r.withoutUsages := by
  refine withoutUsages_modifyAt (fun owner => ?_) _ r
  rw [withoutUsages, withoutUsages]

/-- Collecting names changes nothing but usages. -/
theorem withoutUsages_foldl_addUse (uses : List Site) (r : Resource) :
    (uses.foldl (addUse source owners) r).withoutUsages = r.withoutUsages := by
  induction uses generalizing r with
  | nil => rfl
  | cons site rest ih => rw [List.foldl_cons, ih, withoutUsages_addUse]

theorem isSome_at?_congr {r other : Resource} (h : r.withoutUsages = other.withoutUsages)
    (path : List Nat) : (r.at? path).isSome = (other.at? path).isSome := by
  have hat := congrArg (at? path) h
  rw [at?_withoutUsages, at?_withoutUsages] at hat
  simpa using congrArg Option.isSome hat

/-- A used name is added to the resource that it belongs to and to no other. -/
theorem usages_addUse {r : Resource} {site : Site}
    (h : (r.at? (ownerAbove owners site.address)).isSome) (path : List Nat) :
    ((r.addUse source owners site).at? path).map usages =
      ((r.at? path).map usages).map fun found =>
        if ownerAbove owners site.address = path then found.insert (site.node.text source)
        else found := by
  rw [addUse, Option.map_map]
  refine (usages_modifyAt ?_ path h).trans ?_
  · exact fun _ => rfl
  · simp only [Function.comp_def, eq_comm]

/-- The names that some sites use and that belong to the resource at a path. -/
def ownUses (source : String) (owners : List (Address × List Nat)) (uses : List Site)
    (path : List Nat) : List String :=
  (uses.filter fun site => ownerAbove owners site.address = path).map (·.node.text source)

/-- Each name is added to the resource that it belongs to, in source order. -/
theorem usages_foldl_addUse (source : String) (uses : List Site) (r : Resource)
    (h : ∀ site ∈ uses, (r.at? (ownerAbove owners site.address)).isSome) (path : List Nat) :
    ((uses.foldl (addUse source owners) r).at? path).map usages =
      ((r.at? path).map usages).map fun found =>
        found.insertAll (ownUses source owners uses path) := by
  induction uses using List.reverseRecOn with
  | nil => simp [ownUses, NameSet.insertAll, Function.comp_def]
  | append_singleton rest site ih =>
      have hsite : ((rest.foldl (addUse source owners) r).at?
          (ownerAbove owners site.address)).isSome := by
        rw [isSome_at?_congr (withoutUsages_foldl_addUse rest r)]
        exact h site (by simp)
      have hrest := ih fun other hother => h other (List.mem_append_left _ hother)
      rw [List.foldl_append, List.foldl_cons, List.foldl_nil, usages_addUse hsite, hrest,
        Option.map_map]
      congr 1
      funext found
      by_cases heq : ownerAbove owners site.address = path
      · simp [ownUses, heq, NameSet.insertAll]
      · simp [ownUses, heq]

end Collecting

end Resource


/-! ## Nearest owners -/

namespace Extraction

variable {e : Extraction} {top site child : Site} {path : List Nat}

/-- A nested resource was opened at a site. -/
def IsOwner (e : Extraction) (site : Site) : Prop := ∃ path, (site.address, path) ∈ e.owners

/-- A path leads to the innermost resource around a site: to that of the nearest owner above the
site, or to the file itself if no owner stands above. -/
inductive Innermost (e : Extraction) (top site : Site) : List Nat → Prop where
  | file (hnone : ∀ upper, top.Under upper → upper.Below site → ¬ e.IsOwner upper) :
      Innermost e top site []
  | nested {path : List Nat} (owner : Site) (htop : top.Under owner) (hbelow : owner.Below site)
      (howns : (owner.address, path) ∈ e.owners)
      (hnearest : ∀ upper, owner.Below upper → upper.Below site → ¬ e.IsOwner upper) :
      Innermost e top site path

theorem innermost_child_of_owns (hsite : top.Under site) (hchild : child ∈ site.children)
    (howns : (site.address, path) ∈ e.owners) : e.Innermost top child path := by
  refine .nested site hsite (.single hchild) howns fun upper habove hupper => ?_
  obtain ⟨index, hindex⟩ := Site.exists_address_of_mem_children hchild
  have habove := Site.Below.length_lt habove
  have hupper := Site.Below.length_lt hupper
  rw [hindex, List.length_cons] at hupper
  omega

theorem innermost_child_of_not_isOwner (hsite : top.Under site) (hchild : child ∈ site.children)
    (hnot : ¬ e.IsOwner site) : e.Innermost top child path ↔ e.Innermost top site path := by
  -- an owner above the child is not the site, so it stands above the site
  have habove : ∀ upper, top.Under upper → e.IsOwner upper → upper.Below child →
      upper.Below site := by
    intro upper htop howner hbelow
    rcases Relation.reflTransGen_iff_eq_or_transGen.mp
      (Site.under_of_below_child htop hsite hchild hbelow) with heq | hupper
    · exact absurd (heq ▸ howner) hnot
    · exact hupper
  constructor
  · rintro (hnone | ⟨owner, htop, hbelow, howns, hnearest⟩)
    · exact .file fun upper htop hupper => hnone upper htop (hupper.tail hchild)
    · exact .nested owner htop (habove owner htop ⟨path, howns⟩ hbelow) howns
        fun upper hupper hsite => hnearest upper hupper (hsite.tail hchild)
  · rintro (hnone | ⟨owner, htop, hbelow, howns, hnearest⟩)
    · exact .file fun upper htop hupper howner =>
        hnone upper htop (habove upper htop howner hupper) howner
    · refine .nested owner htop (hbelow.tail hchild) howns fun upper hupper hchild howner => ?_
      have htop' := htop.trans hupper.to_reflTransGen
      exact hnearest upper hupper (habove upper htop' howner hchild) howner

/-- The way up from a site ends at its nearest owner. -/
theorem ownerAbove_eq_iff (hroot : top.address = []) (hnodup : (e.owners.map Prod.fst).Nodup)
    (h : top.Under site) : ownerAbove e.owners site.address = path ↔ e.Innermost top site path := by
  induction h generalizing path with
  | refl =>
      have hnone : ∀ upper, top.Under upper → ¬ upper.Below top := by
        intro upper hunder hbelow
        exact absurd (Site.Below.length_lt hbelow) (by simp [hroot])
      rw [hroot, ownerAbove]
      constructor
      · rintro rfl
        exact .file fun upper htop hupper => absurd hupper (hnone upper htop)
      · rintro (_ | ⟨owner, htop, hbelow, -, -⟩)
        · rfl
        · exact absurd hbelow (hnone owner htop)
  | @tail parent child hparent hchild ih =>
      obtain ⟨index, hindex⟩ := Site.exists_address_of_mem_children hchild
      rw [hindex, ownerAbove]
      cases hlookup : e.owners.lookup parent.address with
      | some found =>
          have howns := (lookup_eq_some_iff_mem hnodup).mp hlookup
          constructor
          · rintro rfl
            exact innermost_child_of_owns hparent hchild howns
          · rintro (hnone | ⟨owner, htop, hbelow, hother, hnearest⟩)
            · exact absurd ⟨found, howns⟩ (hnone parent hparent (.single hchild))
            · rcases Relation.reflTransGen_iff_eq_or_transGen.mp
                (Site.under_of_below_child htop hparent hchild hbelow) with rfl | hupper
              · exact Option.some.inj (hlookup.symm.trans ((lookup_eq_some_iff_mem hnodup).mpr hother))
              · exact absurd ⟨found, howns⟩ (hnearest parent hupper (.single hchild))
      | none =>
          have hnot : ¬ e.IsOwner parent := by
            rintro ⟨other, howns⟩
            rw [(lookup_eq_some_iff_mem hnodup).mpr howns] at hlookup
            cases hlookup
          rw [innermost_child_of_not_isOwner hparent hchild hnot]
          exact ih

/-- The owners of an extraction and its nested resources belong together one to one. -/
structure OwnsNested (source : String) (top : Site) (e : Extraction) : Prop where
  /-- No site is an owner twice. -/
  nodup_addresses : (e.owners.map Prod.fst).Nodup
  /-- Each owner leads to a nested resource, the one that was read at its site. -/
  built_of_mem : ∀ {address path}, (address, path) ∈ e.owners → path ≠ [] ∧
    ∃ site, top.Below site ∧ site.address = address ∧ ∃ nested, e.resource.at? path = some nested ∧
      site.Built source nested ∧ nested.span? = some site.node.span
  /-- Each nested resource, at any depth, has one owner. -/
  existsUnique : ∀ {path}, path ≠ [] → (e.resource.at? path).isSome →
    ∃! address, (address, path) ∈ e.owners

/-- A resource is what an extraction holds, with the names that a tree uses, each once, in source
order and at the innermost resource around its use. -/
structure Collects (source : String) (top : Site) (e : Extraction) (r : Resource) : Prop where
  withoutUsages_eq : r.withoutUsages = e.resource
  /-- The names are the texts, unless empty, of the identifiers that use a name, in preorder. -/
  usages_eq : ∀ path found, r.at? path = some found →
    found.usages.toList = ((top.preorder.filter fun site =>
      site.isCandidate && site.isUse && site.node.text source ≠ "" &&
        ownerAbove e.owners site.address = path).map fun site => site.node.text source).eraseDups
  innermost_iff : ∀ site ∈ top.preorder, ∀ path,
    ownerAbove e.owners site.address = path ↔ e.Innermost top site path

variable {source : String} {header : Resource} {exportsMembers : Bool}

theorem ownsNested_extract (source : String) (header : Resource) (exportsMembers : Bool)
    (body : Site) : (body.extract source header exportsMembers).OwnsNested source body where
  nodup_addresses := Site.nodup_addresses_owners
  built_of_mem h := by
    obtain ⟨hne, site, hsite, haddress, nested, hnested, hbuilt⟩ := Site.built_of_mem_owners h
    exact ⟨hne, site, hsite, haddress, nested, hnested, hbuilt, hbuilt.span?_eq⟩
  existsUnique hne h := by
    obtain ⟨nested, hnested⟩ := Option.isSome_iff_exists.mp h
    exact Site.existsUnique_owner hne hnested

/-- The path to the innermost resource is never cut short. -/
theorem OwnsNested.isSome_at? (h : e.OwnsNested source top) (hin : e.Innermost top site path) :
    (e.resource.at? path).isSome := by
  cases hin with
  | file => rfl
  | nested owner _ _ howns _ =>
      obtain ⟨-, _, -, -, nested, hnested, -⟩ := h.built_of_mem howns
      rw [hnested, Option.isSome_some]

/-- Nothing uses names before they are collected. -/
theorem usages_at?_extract {body : Site} (hheader : header.usages = .empty) {path : List Nat}
    {found : Resource}
    (h : (body.extract source header exportsMembers).resource.at? path = some found) :
    found.usages = .empty := by
  by_cases hpath : path = []
  · subst hpath
    obtain rfl := Option.some.inj h
    rw [Site.usages_extract, hheader]
  · obtain ⟨address, howns, -⟩ := Site.existsUnique_owner hpath h
    obtain ⟨-, site, -, -, nested, hnested, hbuilt⟩ := Site.built_of_mem_owners howns
    obtain rfl := Option.some.inj (hnested.symm.trans h)
    exact hbuilt.usages_eq

theorem collects_withUsages (h : e.OwnsNested source top) (hroot : top.address = [])
    (hempty : ∀ path found, e.resource.at? path = some found → found.usages = .empty) :
    e.Collects source top (e.withUsages source top) := by
  have hinnermost : ∀ site ∈ top.preorder, ∀ path,
      ownerAbove e.owners site.address = path ↔ e.Innermost top site path := fun site hsite _ =>
    ownerAbove_eq_iff hroot h.nodup_addresses (Site.mem_preorder_iff.mp hsite)
  have hleads : ∀ use ∈ top.uses source, (e.resource.at? (ownerAbove e.owners use.address)).isSome :=
    fun use huse => h.isSome_at? ((hinnermost use (List.mem_filter.mp huse).1 _).mp rfl)
  refine ⟨?_, fun path found hfound => ?_, hinnermost⟩
  · rw [withUsages, Resource.withoutUsages_foldl_addUse]
    exact Resource.withoutUsages_eq_self _ hempty
  · have hfold := Resource.usages_foldl_addUse source (top.uses source) _ hleads path
    rw [← withUsages, hfound, Option.map_some, Option.map_map, eq_comm,
      Option.map_eq_some_iff] at hfold
    obtain ⟨before, hbefore, heq⟩ := hfold
    rw [← heq, Function.comp_apply, hempty path before hbefore, ← NameSet.ofList,
      NameSet.toList_ofList, Resource.ownUses, Site.uses, List.filter_filter]
    simp only [Bool.and_comm]

end Extraction

namespace Document

/-- What the statements of a document contribute. -/
def parts (document : Document) : List Part :=
  ((Site.ofRoot document.root).bodyPieces document.text false).map (Piece.read document.text)

/-- Whatever does not look at usages sees what the statements make. -/
theorem view_toResource {α : Type} {view : Resource → α} {file root : Path}
    (hview : ∀ r : Resource, view r.withoutUsages = view r)
    (document : Document) : view (document.toResource file root) =
      view (Resource.ofParts (.ofFile file root) document.parts) := by
  have hparts : (document.extraction file root).resource =
      Resource.ofParts (.ofFile file root) document.parts := by
    rw [extraction, Site.extract_eq]
    rfl
  rw [← hview, toResource, Extraction.withUsages, Resource.withoutUsages_foldl_addUse, hview, hparts]

end Document

/-- The resource of a document shares the names that the document uses among the file and the
resources nested in it: the owners of the extraction and its nested resources belong together one
to one, and each name goes to the innermost resource around its use. -/
theorem Document.collects_toResource (document : Document) (file root : Path) :
    (document.extraction file root).OwnsNested document.text (.ofRoot document.root) ∧
      (document.extraction file root).Collects document.text (.ofRoot document.root)
        (document.toResource file root) := by
  have howns := Extraction.ownsNested_extract document.text (.ofFile file root) false
    (.ofRoot document.root)
  exact ⟨howns, Extraction.collects_withUsages howns rfl fun _ _ => Extraction.usages_at?_extract rfl⟩

end ExportIndex
