import ExportIndex.Proofs.Surface.Rules

/-!
# How a surface depends on others

The surface of a module depends on the surfaces of its targets only, and under names it grows with
them. Its default slot need not: the first offer holds it, and an offer that comes up later may be
placed first. Where no export clause gives the default slot, its binding is the module's own and the
whole surface grows with the others.
-/

namespace ExportIndex.ModuleEntry

theorem wellFormed_surface (entry : ModuleEntry) (source : ModuleKey → Surface) :
    (entry.surface source).WellFormed := by
  unfold surface
  split
  next => exact ⟨Surface.wellFormed_empty.1, Surface.wellFormed_empty.2, Surface.wellFormed_empty.3⟩
  next => exact Surface.wellFormed_ofOffers _

theorem surface_of_assigned {entry : ModuleEntry} {value : AssignedValue}
    (h : entry.assignedValue? = some value) (source : ModuleKey → Surface) :
    entry.surface source =
      { Surface.empty with assigned? := some value, conflict := entry.hasNamedExports } := by
  simp [surface, h]

theorem surface_of_not_assigned {entry : ModuleEntry} (h : entry.assignedValue? = none)
    (source : ModuleKey → Surface) : entry.surface source = .ofOffers (entry.offers source) := by
  simp [surface, h]

/-- The value of an `export =` and the conflict it makes do not depend on other modules. -/
theorem assigned?_surface (entry : ModuleEntry) (source : ModuleKey → Surface) :
    (entry.surface source).assigned? = entry.assignedValue? ∧
      (entry.surface source).conflict = (entry.assignedValue?.isSome && entry.hasNamedExports) := by
  cases h : entry.assignedValue? with
  | none => simp [surface_of_not_assigned h, Surface.assigned?_ofOffers]
  | some value => simp [surface_of_assigned h]

theorem not_mem_bindings_of_assigned {entry : ModuleEntry} {value : AssignedValue}
    (h : entry.assignedValue? = some value) (source : ModuleKey → Surface) (name : String)
    (binding : Binding) : binding ∉ (entry.surface source).bindings name := by
  have hempty : (entry.surface source).bindings name = Surface.empty.bindings name := by
    rw [surface_of_assigned h]
    rfl
  simp [hempty]

/-- Under a name, a module without an `export =` lists exactly what its rules give. -/
theorem mem_bindings_surface_iff {entry : ModuleEntry} (hfilled : entry.Filled)
    {source : ModuleKey → Surface} (hsource : ∀ key, (source key).WellFormed) {name : String}
    (hname : name ≠ defaultName) {binding : Binding} :
    binding ∈ (entry.surface source).bindings name ↔
      entry.assignedValue? = none ∧ entry.Gives source name binding := by
  cases h : entry.assignedValue? with
  | none =>
      rw [surface_of_not_assigned h, Surface.mem_bindings_ofOffers hname,
        mem_offers_iff hfilled hsource]
      simp
  | some value => simp [not_mem_bindings_of_assigned h]

/-- Whatever a module lists, as its default too, is given by its rules. -/
theorem gives_of_mem_bindings_surface {entry : ModuleEntry} (hfilled : entry.Filled)
    {source : ModuleKey → Surface} (hsource : ∀ key, (source key).WellFormed) {name : String}
    {binding : Binding} (hmem : binding ∈ (entry.surface source).bindings name) :
    entry.assignedValue? = none ∧ entry.Gives source name binding := by
  by_cases hname : name = defaultName
  · subst hname
    cases h : entry.assignedValue? with
    | none =>
        rw [surface_of_not_assigned h, Surface.mem_bindings_default, Surface.default?_ofOffers,
          Option.map_eq_some_iff] at hmem
        obtain ⟨offer, hfind, rfl⟩ := hmem
        obtain ⟨name, binding⟩ := offer
        obtain rfl : name = defaultName := by simpa using List.find?_some hfind
        exact ⟨rfl, (mem_offers_iff hfilled hsource).mp (List.mem_of_find?_eq_some hfind)⟩
    | some value => exact absurd hmem (not_mem_bindings_of_assigned h source _ _)
  · exact (mem_bindings_surface_iff hfilled hsource hname).mp hmem

/-! ## Targets -/

theorem mem_targets_of_exportTarget? {entry : ModuleEntry} {index : Nat} {target : ModuleKey}
    (h : entry.exportTarget? index = some target) : target ∈ entry.targets := by
  have hget := exportTarget?_eq_some_iff.mp h
  exact List.mem_append_left _ (List.mem_filterMap.mpr ⟨_, List.mem_of_getElem? hget, rfl⟩)

theorem mem_targets_of_importTarget? {entry : ModuleEntry} {index : Nat} {target : ModuleKey}
    (h : entry.importTarget? index = some target) : target ∈ entry.targets := by
  have hget := importTarget?_eq_some_iff.mp h
  exact List.mem_append_right _ (List.mem_filterMap.mpr ⟨_, List.mem_of_getElem? hget, rfl⟩)

theorem FirstImport.mem_targets {entry : ModuleEntry} {name : String} {position : Nat}
    {target : ModuleKey} {imported : Imported}
    (h : entry.FirstImport name position target imported) : target ∈ entry.targets :=
  mem_targets_of_importTarget? (importTarget?_eq_some_iff.mpr h.target_eq)

theorem localBindings_congr {entry : ModuleEntry} {source source' : ModuleKey → Surface}
    (h : ∀ target ∈ entry.targets, source target = source' target) (name : String) :
    entry.localBindings source name = entry.localBindings source' name := by
  by_cases hown : entry.ownBindings name = []
  · rw [localBindings_of_not_owns hown, localBindings_of_not_owns hown]
    cases hfound : entry.firstImport? name with
    | none => rfl
    | some found =>
        obtain ⟨position, target, original | _⟩ := found
        · simp [givenBindings, h target (firstImport?_eq_some_iff.mp hfound).mem_targets]
        · rfl
  · rw [localBindings_of_owns hown, localBindings_of_owns hown]

theorem exportOffers_congr {entry : ModuleEntry} {source source' : ModuleKey → Surface}
    (h : ∀ target ∈ entry.targets, source target = source' target) (e : Export) (index : Nat) :
    entry.exportOffers source e index = entry.exportOffers source' e index := by
  cases htarget : entry.exportTarget? index with
  | none =>
      cases e with
      | all => simp [exportOffers, htarget]
      | named library? => cases library? <;> simp [exportOffers, htarget, localBindings_congr h]
      | assigned => rfl
  | some target =>
      have hsame := h target (mem_targets_of_exportTarget? htarget)
      cases e with
      | all _ rename? => cases rename? <;> simp [exportOffers, htarget, hsame]
      | named library? =>
          cases library? <;> simp [exportOffers, htarget, hsame, localBindings_congr h]
      | assigned => rfl

/-- Surfaces of modules that are no targets do not matter. -/
theorem surface_congr {entry : ModuleEntry} {source source' : ModuleKey → Surface}
    (h : ∀ target ∈ entry.targets, source target = source' target) :
    entry.surface source = entry.surface source' := by
  have hoffers : entry.offers source = entry.offers source' := by
    simp only [offers, exportOffers_congr h]
  cases hassigned : entry.assignedValue? with
  | none => rw [surface_of_not_assigned hassigned, surface_of_not_assigned hassigned, hoffers]
  | some value => rw [surface_of_assigned hassigned, surface_of_assigned hassigned]

/-! ## The default slot -/

/-- Every name that an export clause of a module gives is allowed. -/
def ClausesWithin (entry : ModuleEntry) (allowed : String → Prop) : Prop :=
  ∀ e ∈ entry.resource.exports, ∀ s ∈ e.specifiers, allowed s.localName

/-- What an `export * as` statement offers. -/
def starOffer? (entry : ModuleEntry) : Export × Nat → Option Offer
  | (.all _ (some name) _, index) =>
    if (entry.exportTarget? index).isSome ∧ (entry.item? (.starExport index)).isSome then
      some ⟨name, entry.binding (.starExport index)⟩
    else none
  | _ => none

/-- The items that a module offers without an export clause and without a look at others. -/
def ownOffers (entry : ModuleEntry) : List Offer :=
  entry.declarationOffers ++ entry.nestedOffers ++
    entry.resource.exports.zipIdx.filterMap entry.starOffer?

/-- The default binding of a module whose export clauses give none: its first default export, or an
item that it exports under that name. -/
def ownDefault? (entry : ModuleEntry) : Option Binding :=
  if entry.assignedValue?.isSome then none
  else (entry.ownOffers.find? (·.name = defaultName)).map (·.binding)

theorem filter_default_of_clause {specifiers : List SymbolSpecifier}
    (h : ∀ s ∈ specifiers, s.localName ≠ defaultName)
    (bindings : SymbolSpecifier → List Binding) :
    (specifiers.flatMap fun s => (bindings s).map (Offer.mk s.localName)).filter
      (·.name = defaultName) = [] := by
  apply List.filter_eq_nil_iff.mpr
  intro offer hoffer
  obtain ⟨s, hs, hoffer⟩ := List.mem_flatMap.mp hoffer
  obtain ⟨_, _, rfl⟩ := List.mem_map.mp hoffer
  simpa using h s hs

theorem filter_default_exportOffers {entry : ModuleEntry} {source : ModuleKey → Surface}
    (hsource : ∀ key, (source key).WellFormed) {e : Export}
    (h : ∀ s ∈ e.specifiers, s.localName ≠ defaultName) (index : Nat) :
    (entry.exportOffers source e index).filter (·.name = defaultName) =
      (entry.starOffer? (e, index)).toList.filter (·.name = defaultName) := by
  cases e with
  | all library rename? span =>
      cases htarget : entry.exportTarget? index with
      | none => cases rename? <;> simp [exportOffers, starOffer?, htarget]
      | some target =>
          cases rename? with
          | none =>
              simp only [exportOffers, starOffer?, htarget, Option.toList_none, List.filter_nil]
              -- a star passes on no default
              apply List.filter_eq_nil_iff.mpr
              intro offer hoffer
              simpa using ((Surface.mem_namedOffers_iff (hsource target)).mp hoffer).1
          | some name =>
              by_cases hitem : (entry.item? (.starExport index)).isSome <;>
                simp [exportOffers, starOffer?, htarget, bindingsAt, hitem]
  | named library? specifiers isTypeOnly span =>
      have hclause := @filter_default_of_clause specifiers h
      cases library? with
      | none => simpa [exportOffers, starOffer?] using hclause _
      | some library =>
          cases htarget : entry.exportTarget? index with
          | none => simp [exportOffers, starOffer?, htarget]
          | some target => simpa [exportOffers, starOffer?, htarget] using hclause _
  | assigned => simp [exportOffers, starOffer?]

theorem filter_default_offers {entry : ModuleEntry} {source : ModuleKey → Surface}
    (hsource : ∀ key, (source key).WellFormed) (h : entry.ClausesWithin (· ≠ defaultName)) :
    (entry.offers source).filter (·.name = defaultName) =
      entry.ownOffers.filter (·.name = defaultName) := by
  simp only [offers, ownOffers, List.filterMap_eq_flatMap_toList, List.filter_append,
    List.filter_flatMap]
  congr 1
  apply List.flatMap_congr
  rintro ⟨e, index⟩ he
  have hmem := List.mem_of_getElem? (List.mem_zipIdx_iff_getElem?.mp he)
  exact filter_default_exportOffers hsource (h e hmem) index

/-- Where no export clause gives the default slot, its binding is the module's own. -/
theorem default?_surface {entry : ModuleEntry} {source : ModuleKey → Surface}
    (hsource : ∀ key, (source key).WellFormed) (h : entry.ClausesWithin (· ≠ defaultName)) :
    (entry.surface source).default? = entry.ownDefault? := by
  cases hassigned : entry.assignedValue? with
  | some value => simp [surface_of_assigned hassigned, ownDefault?, hassigned, Surface.empty]
  | none =>
      rw [surface_of_not_assigned hassigned, Surface.default?_ofOffers, ownDefault?, hassigned,
        ← List.head?_filter, ← List.head?_filter, filter_default_offers hsource h]
      rfl

/-! ### The order of the items -/

section Order

/-- Offers that are made position by position, at most one for each, come in the order of their
items. -/
theorem pairwise_offers {α : Type} {placed : List (α × Nat)} {offer? : α × Nat → Option Offer}
    {place : Nat → Slot} (hplaced : placed.Pairwise fun first second => first.2 < second.2)
    (hplace : ∀ found offer, offer? found = some offer → offer.binding.slot = place found.2)
    (horder : ∀ {first second}, first < second → (place first).Before (place second)) :
    (placed.filterMap offer?).Pairwise fun first second =>
      first.binding.slot.Before second.binding.slot := by
  rw [List.pairwise_filterMap]
  refine hplaced.imp fun hlt first hfirst second hsecond => ?_
  rw [hplace _ first hfirst, hplace _ second hsecond]
  exact horder hlt

variable (entry : ModuleEntry)

theorem slot_declarationOffer {found : Declaration × Nat} {offer : Offer}
    (h : (if found.1.isDefault then some ⟨defaultName, entry.binding (.declared found.2)⟩
      else if found.1.exported then
        found.1.name?.map fun name => ⟨name, entry.binding (.declared found.2)⟩
      else none) = some offer) : offer.binding.slot = .declared found.2 := by
  split at h
  · obtain rfl := Option.some.inj h
    rfl
  · split at h
    · obtain ⟨_, _, rfl⟩ := Option.map_eq_some_iff.mp h
      rfl
    · cases h

theorem slot_nestedOffer {found : Resource × Nat} {offer : Offer}
    (h : (if found.1.exported then
        found.1.name?.map fun name => ⟨name, entry.binding (.nested found.2)⟩
      else none) = some offer) : offer.binding.slot = .nested found.2 := by
  split at h
  · obtain ⟨_, _, rfl⟩ := Option.map_eq_some_iff.mp h
    rfl
  · cases h

theorem slot_starOffer {found : Export × Nat} {offer : Offer}
    (h : entry.starOffer? found = some offer) : offer.binding.slot = .starExport found.2 := by
  unfold starOffer? at h
  split at h
  · obtain rfl := Option.some.inj (Option.ite_none_right_eq_some.mp h).2
    rfl
  · cases h

/-- What a module offers without an export clause and without a look at others comes in the order of its
items. -/
theorem pairwise_ownOffers :
    entry.ownOffers.Pairwise fun first second => first.binding.slot.Before second.binding.slot := by
  refine List.pairwise_append.mpr ⟨List.pairwise_append.mpr ⟨?_, ?_, ?_⟩, ?_, ?_⟩
  · exact pairwise_offers (pairwise_zipIdx _) (fun _ _ => slot_declarationOffer entry) .declared
  · exact pairwise_offers (pairwise_zipIdx _) (fun _ _ => slot_nestedOffer entry) .nested
  · intro first hfirst second hsecond
    obtain ⟨_, _, hfirst⟩ := List.mem_filterMap.mp hfirst
    obtain ⟨_, _, hsecond⟩ := List.mem_filterMap.mp hsecond
    rw [slot_declarationOffer entry hfirst, slot_nestedOffer entry hsecond]
    exact .declared_nested
  · exact pairwise_offers (pairwise_zipIdx _) (fun _ _ => slot_starOffer entry) .starExport
  · intro first hfirst second hsecond
    obtain ⟨_, _, hsecond⟩ := List.mem_filterMap.mp hsecond
    rw [slot_starOffer entry hsecond]
    rcases List.mem_append.mp hfirst with hfirst | hfirst
    · obtain ⟨_, _, hfirst⟩ := List.mem_filterMap.mp hfirst
      rw [slot_declarationOffer entry hfirst]
      exact .declared_starExport
    · obtain ⟨_, _, hfirst⟩ := List.mem_filterMap.mp hfirst
      rw [slot_nestedOffer entry hfirst]
      exact .nested_starExport

end Order

section Default

variable {entry : ModuleEntry} (hfilled : entry.Filled)

include hfilled

/-- What a module offers as its default without a look at others is what it exports as its default. -/
theorem mem_ownOffers_iff (h : entry.ClausesWithin (· ≠ defaultName)) {binding : Binding} :
    ⟨defaultName, binding⟩ ∈ entry.ownOffers ↔
      ∃ slot, entry.Exports defaultName slot ∧ binding = entry.binding slot := by
  -- next to modules that list nothing, a module gives only what it exports itself
  have hempty : ∀ key : ModuleKey, ((fun _ => Surface.empty) key).WellFormed :=
    fun _ => Surface.wellFormed_empty
  have hsame := congrArg (⟨defaultName, binding⟩ ∈ ·) (filter_default_offers hempty h)
  simp only [List.mem_filter, decide_true, and_true, eq_iff_iff] at hsame
  rw [← hsame, mem_offers_iff hfilled hempty]
  constructor
  · intro hgives
    cases hgives with
    | exports hexports => exact ⟨_, hexports, rfl⟩
    | passes _ hbinding => simp at hbinding
  · rintro ⟨slot, hexports, rfl⟩
    exact .exports hexports

/-- The default binding of a module whose export clauses give none is the first of the items that it
exports as its default. -/
theorem ownDefault?_eq_some_iff (h : entry.ClausesWithin (· ≠ defaultName)) {binding : Binding} :
    entry.ownDefault? = some binding ↔
      entry.AssignsNothing ∧ ∃ slot, entry.FirstDefault slot ∧ binding = entry.binding slot := by
  have hfind := fun offer => find?_eq_some_iff_of_pairwise (x := offer)
    (p := fun offer : Offer => decide (offer.name = defaultName)) (fun _ _ => Slot.Before.asymm)
    (pairwise_ownOffers entry)
  rw [assignsNothing_iff]
  cases hassigned : entry.assignedValue? with
  | some value => simp [ownDefault?, hassigned]
  | none =>
      simp only [ownDefault?, hassigned, Option.isSome_none, Bool.false_eq_true, if_false,
        Option.map_eq_some_iff, hfind, true_and]
      constructor
      · rintro ⟨⟨name, binding⟩, ⟨hmem, hname, hfirst⟩, rfl⟩
        obtain rfl := of_decide_eq_true hname
        obtain ⟨slot, hexports, rfl⟩ := (mem_ownOffers_iff hfilled h).mp hmem
        refine ⟨slot, ⟨hexports, fun other hother => ?_⟩, rfl⟩
        have hoffer := (mem_ownOffers_iff hfilled h).mpr ⟨other, hother, rfl⟩
        exact (hfirst _ hoffer (decide_eq_true rfl)).imp_left
          fun heq => congrArg (·.binding.slot) heq
      · rintro ⟨slot, ⟨hexports, hfirst⟩, rfl⟩
        refine ⟨⟨defaultName, entry.binding slot⟩,
          ⟨(mem_ownOffers_iff hfilled h).mpr ⟨slot, hexports, rfl⟩, decide_eq_true rfl, ?_⟩, rfl⟩
        rintro ⟨name, binding⟩ hoffer hname
        obtain rfl := of_decide_eq_true hname
        obtain ⟨other, hother, rfl⟩ := (mem_ownOffers_iff hfilled h).mp hoffer
        exact (hfirst other hother).imp_left fun heq => by rw [heq]

end Default

/-- Where no export clause gives the default slot, a surface grows with the others. -/
theorem surface_within {entry : ModuleEntry} (hfilled : entry.Filled)
    {source source' : ModuleKey → Surface} (hsource : ∀ key, (source key).WellFormed)
    (hsource' : ∀ key, (source' key).WellFormed) (h : entry.ClausesWithin (· ≠ defaultName))
    (hwithin : ∀ key, (source key).Within (source' key)) :
    (entry.surface source).Within (entry.surface source') := by
  intro name binding hmem
  by_cases hname : name = defaultName
  · -- the default slot is the module's own, so both surfaces have the same
    subst hname
    rw [Surface.mem_bindings_default, default?_surface hsource h] at hmem
    rw [Surface.mem_bindings_default, default?_surface hsource' h, hmem]
  · rw [mem_bindings_surface_iff hfilled hsource hname] at hmem
    rw [mem_bindings_surface_iff hfilled hsource' hname]
    exact ⟨hmem.1, hmem.2.mono hwithin⟩

/-- Where no export clause gives the default slot, a surface depends only on what the others list. -/
theorem surface_agrees {entry : ModuleEntry} (hfilled : entry.Filled)
    {source source' : ModuleKey → Surface} (hsource : ∀ key, (source key).WellFormed)
    (hsource' : ∀ key, (source' key).WellFormed) (h : entry.ClausesWithin (· ≠ defaultName))
    (hwithin : ∀ key, (source key).Within (source' key))
    (hwithin' : ∀ key, (source' key).Within (source key)) :
    (entry.surface source).Agrees (entry.surface source') := by
  obtain ⟨hassigned, hconflict⟩ := entry.assigned?_surface source
  obtain ⟨hassigned', hconflict'⟩ := entry.assigned?_surface source'
  exact (surface_within hfilled hsource hsource' h hwithin).agrees
    (surface_within hfilled hsource' hsource h hwithin') (hassigned.trans hassigned'.symm)
    (hconflict.trans hconflict'.symm)

end ExportIndex.ModuleEntry
