import ExportIndex.Proofs.Collections.Positions
import ExportIndex.Proofs.Resolution.Steps
import ExportIndex.Snapshot

/-!
# Unresolved statements

A re-export from an unknown module, or an import of one, counts for nothing: whatever names such a
statement mentions, no surface changes. In particular it does not stand in the way of a later import that
binds the same name.
-/

namespace ExportIndex

namespace ModuleEntry

/-- The export statements at one place of two modules are the same, or both re-export from a module that
is not known. -/
def ExportsAlike (target? : Option ModuleKey) (e other : Export) : Prop :=
  other = e ∨ target? = none ∧ e.source?.isSome ∧ other.source?.isSome

/-- The import statements at one place of two modules are the same, or they import a module that is not
known. -/
def ImportsAlike (target? : Option ModuleKey) (i other : Import) : Prop := other = i ∨ target? = none

/-- Two modules have the same declarations and nested resources and name the same known modules. Their
statements agree position by position, but for what those with an unknown target say. -/
structure Alike (entry other : ModuleEntry) : Prop where
  key : other.key = entry.key
  declarations : other.resource.declarations = entry.resource.declarations
  resources : other.resource.resources = entry.resource.resources
  exportTargets : other.exportTargets = entry.exportTargets
  importTargets : other.importTargets = entry.importTargets
  exports : ∀ index, Option.Rel (ExportsAlike (entry.exportTarget? index))
    entry.resource.exports[index]? other.resource.exports[index]?
  imports : ∀ index, Option.Rel (ImportsAlike (entry.importTarget? index))
    entry.resource.imports[index]? other.resource.imports[index]?

theorem ExportsAlike.assignedTargets?_eq {target? : Option ModuleKey} {e other : Export}
    (h : ExportsAlike target? e other) : assignedTargets? e = assignedTargets? other := by
  rcases h with rfl | ⟨-, he, hother⟩
  · rfl
  · cases e <;> cases other <;> simp_all [assignedTargets?, Export.source?]

theorem ExportsAlike.isAssigned_eq {target? : Option ModuleKey} {e other : Export}
    (h : ExportsAlike target? e other) : e.isAssigned = other.isAssigned := by
  rcases h with rfl | ⟨-, he, hother⟩
  · rfl
  · cases e <;> cases other <;> simp_all [Export.isAssigned, Export.source?]

/-- A re-export from an unknown module offers nothing. -/
theorem exportOffers_of_unresolved {entry : ModuleEntry} {index : Nat}
    (htarget : entry.exportTarget? index = none) {e : Export} (he : e.source?.isSome)
    (source : ModuleKey → Surface) : entry.exportOffers source e index = [] := by
  cases e with
  | all => simp [exportOffers, htarget]
  | named library? =>
      cases library? with
      | none => simp [Export.source?] at he
      | some library => simp [exportOffers, htarget]
  | assigned => rfl

namespace Alike

variable {entry other : ModuleEntry} (h : entry.Alike other)

include h

theorem exportTarget?_eq (index : Nat) : other.exportTarget? index = entry.exportTarget? index := by
  rw [exportTarget?, h.exportTargets, exportTarget?]

theorem importTarget?_eq (index : Nat) : other.importTarget? index = entry.importTarget? index := by
  rw [importTarget?, h.importTargets, importTarget?]

theorem targets_eq : other.targets = entry.targets := by
  rw [targets, h.exportTargets, h.importTargets, targets]

theorem binding_eq (slot : Slot) : other.binding slot = entry.binding slot := by
  rw [binding, h.key, binding]

/-- An export whose target is known is the same in both modules. -/
theorem exports_eq_of_known {index : Nat} {target : ModuleKey}
    (htarget : entry.exportTargets[index]? = some (some target)) :
    other.resource.exports[index]? = entry.resource.exports[index]? := by
  have hknown : entry.exportTarget? index = some target := exportTarget?_eq_some_iff.mpr htarget
  refine option_eq_of_rel (rel_imp (fun _ _ halike => halike.resolve_right ?_) (h.exports index))
  rintro ⟨hnone, -⟩
  rw [hnone] at hknown
  cases hknown

/-- An import whose target is known is the same in both modules. -/
theorem imports_eq_of_known {index : Nat} {target : ModuleKey}
    (htarget : entry.importTargets[index]? = some (some target)) :
    other.resource.imports[index]? = entry.resource.imports[index]? := by
  have hknown : entry.importTarget? index = some target := importTarget?_eq_some_iff.mpr htarget
  refine option_eq_of_rel (rel_imp (fun _ _ halike => halike.resolve_right ?_) (h.imports index))
  intro hnone
  rw [hnone] at hknown
  cases hknown

/-- The first import that binds a name is the same, since an import of an unknown module binds none. -/
theorem firstImport?_eq (name : String) : other.firstImport? name = entry.firstImport? name := by
  have hsteps := map_zipIdx_eq_of_rel entry.resource.imports other.resource.imports
    (f := fun i index => (entry.importTarget? index).bind fun target =>
      (imported? name i).map fun imported => (index, target, imported))
    (g := fun i index => (other.importTarget? index).bind fun target =>
      (imported? name i).map fun imported => (index, target, imported)) fun index => by
    refine rel_imp (fun i i' halike => ?_) (h.imports index)
    rw [h.importTarget?_eq]
    rcases halike with rfl | hnone
    · rfl
    · rw [hnone, Option.bind_none, Option.bind_none]
  have hfound := congrArg (List.findSome? id) hsteps
  rw [List.findSome?_map, List.findSome?_map] at hfound
  exact hfound.symm

section Filled

variable (hentry : entry.Filled) (hother : other.Filled)

include hentry hother

/-- The same items stand at the places that can be bound to a name. -/
theorem item?_eq {slot : Slot} (hslot : slot ≠ .whole) : other.item? slot = entry.item? slot := by
  cases slot with
  | declared index => simp only [item?, hentry.locals_eq, hother.locals_eq, h.declarations]
  | nested index => simp only [item?, hentry.nested_eq, hother.nested_eq, h.resources]
  | starExport index =>
      apply Option.ext
      intro item
      rw [item?, item?, hother.get?_starExports_eq_some_iff, hentry.get?_starExports_eq_some_iff,
        h.exportTargets]
      constructor
      · rintro ⟨specifier, name, span, target, he, htarget, rfl⟩
        exact ⟨specifier, name, span, target, h.exports_eq_of_known htarget ▸ he, htarget, rfl⟩
      · rintro ⟨specifier, name, span, target, he, htarget, rfl⟩
        exact ⟨specifier, name, span, target, (h.exports_eq_of_known htarget).trans he, htarget, rfl⟩
  | moduleImport index =>
      apply Option.ext
      intro item
      rw [item?, item?, hother.get?_moduleImports_eq_some_iff, hentry.get?_moduleImports_eq_some_iff,
        h.importTargets]
      constructor
      · rintro ⟨i, name, span, target, hi, hwhole, htarget, rfl⟩
        exact ⟨i, name, span, target, h.imports_eq_of_known htarget ▸ hi, hwhole, htarget, rfl⟩
      · rintro ⟨i, name, span, target, hi, hwhole, htarget, rfl⟩
        exact ⟨i, name, span, target, (h.imports_eq_of_known htarget).trans hi, hwhole, htarget, rfl⟩
  | whole => exact absurd rfl hslot

theorem bindingsAt_eq (slot : Slot) (hslot : slot ≠ .whole) :
    other.bindingsAt slot = entry.bindingsAt slot := by
  rw [bindingsAt, bindingsAt, h.item?_eq hentry hother hslot, h.binding_eq]

theorem ownBindings_eq (name : String) : other.ownBindings name = entry.ownBindings name := by
  simp only [ownBindings, hentry.placedDeclarations_eq, hother.placedDeclarations_eq,
    hentry.placedResources_eq, hother.placedResources_eq, h.declarations, h.resources, h.binding_eq]

theorem localBindings_eq (source : ModuleKey → Surface) (name : String) :
    other.localBindings source name = entry.localBindings source name := by
  by_cases hown : entry.ownBindings name = []
  · have hgiven : other.givenBindings source = entry.givenBindings source := by
      funext ⟨position, target, imported⟩
      cases imported with
      | name => rfl
      | whole =>
          have hitem := h.bindingsAt_eq hentry hother (.moduleImport position) Slot.noConfusion
          rw [givenBindings, hitem, givenBindings]
    have hown' : other.ownBindings name = [] := (h.ownBindings_eq hentry hother name).trans hown
    rw [localBindings_of_not_owns hown, localBindings_of_not_owns hown', h.firstImport?_eq, hgiven]
  · have hsame := h.ownBindings_eq hentry hother name
    rw [localBindings_of_owns hown, localBindings_of_owns (by rwa [hsame]), hsame]

theorem exportOffers_eq (source : ModuleKey → Surface) {e e' : Export} {index : Nat}
    (halike : ExportsAlike (entry.exportTarget? index) e e') :
    entry.exportOffers source e index = other.exportOffers source e' index := by
  rcases halike with rfl | ⟨hnone, he, he'⟩
  · have htarget := h.exportTarget?_eq index
    cases e' with
    | all =>
        simp only [exportOffers, htarget,
          h.bindingsAt_eq hentry hother (.starExport index) Slot.noConfusion]
    | named library? =>
        cases library? with
        | none => simp only [exportOffers, h.localBindings_eq hentry hother]
        | some => simp only [exportOffers, htarget]
    | assigned => rfl
  · rw [exportOffers_of_unresolved hnone he,
      exportOffers_of_unresolved ((h.exportTarget?_eq index).trans hnone) he']

theorem offers_eq (source : ModuleKey → Surface) : other.offers source = entry.offers source := by
  have hexports := map_zipIdx_eq_of_rel _ _ (f := entry.exportOffers source)
    (g := other.exportOffers source) fun index =>
      rel_imp (fun _ _ halike => h.exportOffers_eq hentry hother source halike) (h.exports index)
  have hdeclarations : other.declarationOffers = entry.declarationOffers := by
    simp only [declarationOffers, hentry.placedDeclarations_eq, hother.placedDeclarations_eq,
      h.declarations, h.binding_eq]
  have hnested : other.nestedOffers = entry.nestedOffers := by
    simp only [nestedOffers, hentry.placedResources_eq, hother.placedResources_eq, h.resources,
      h.binding_eq]
  rw [offers, offers, hdeclarations, hnested, List.flatMap_def, List.flatMap_def, ← hexports]

omit hentry hother in
theorem hasNamedExports_eq : other.hasNamedExports = entry.hasNamedExports := by
  have hkinds : entry.resource.exports.map Export.isAssigned =
      other.resource.exports.map Export.isAssigned :=
    map_eq_of_rel fun index => rel_imp (fun _ _ halike => halike.isAssigned_eq) (h.exports index)
  have hany := congrArg (List.any · (!·)) hkinds
  simp only [List.any_map] at hany
  rw [hasNamedExports, hasNamedExports, h.declarations, h.resources]
  exact congrArg (fun other => other || _ || _) hany.symm

theorem assignedValue?_eq : other.assignedValue? = entry.assignedValue? := by
  have htargets : entry.resource.exports.map assignedTargets? =
      other.resource.exports.map assignedTargets? :=
    map_eq_of_rel fun index => rel_imp (fun _ _ halike => halike.assignedTargets?_eq) (h.exports index)
  have hfirst := congrArg (List.findSome? id) htargets
  rw [List.findSome?_map, List.findSome?_map] at hfirst
  have hfirst : entry.resource.exports.findSome? assignedTargets? =
      other.resource.exports.findSome? assignedTargets? := hfirst
  simp only [assignedValue?, hfirst, hentry.assignedLocals_eq, hother.assignedLocals_eq,
    Resource.assignedDeclarations, Resource.assignedResources, h.declarations, h.resources]

/-- Whatever the surfaces of other modules are, both modules make the same of them. -/
theorem surface_eq : other.surface = entry.surface := by
  funext source
  rw [surface, surface, h.assignedValue?_eq hentry hother, h.hasNamedExports_eq,
    h.offers_eq hentry hother]

end Filled

end Alike

/-- The module with its unresolved statements silenced: an import of an unknown module binds no name,
and a re-export from one passes on none. -/
def withoutUnresolved (entry : ModuleEntry) : ModuleEntry :=
  let resource :=
    { entry.resource with
      exports := entry.resource.exports.mapIdx fun index e =>
        match e.source?, entry.exportTarget? index with
        | some library, none => .named (some library) [] false e.span
        | _, _ => e
      imports := entry.resource.imports.mapIdx fun index i =>
        match entry.importTarget? index with
        | some _ => i
        | none => .bare i.library i.span }
  ofTargets entry.key resource entry.exportTargets entry.importTargets entry.declaredIn?

theorem alike_withoutUnresolved (entry : ModuleEntry) : entry.Alike entry.withoutUnresolved where
  key := rfl
  declarations := rfl
  resources := rfl
  exportTargets := rfl
  importTargets := rfl
  exports index := by
    simp only [withoutUnresolved, ofTargets, List.getElem?_mapIdx]
    cases entry.resource.exports[index]? with
    | none => exact .none
    | some e =>
        refine .some ?_
        dsimp only
        split
        next library hsource htarget => exact .inr ⟨htarget, by simp [hsource], rfl⟩
        next => exact .inl rfl
  imports index := by
    simp only [withoutUnresolved, ofTargets, List.getElem?_mapIdx]
    cases entry.resource.imports[index]? with
    | none => exact .none
    | some i =>
        refine .some ?_
        dsimp only
        split
        next => exact .inl rfl
        next htarget => exact .inr htarget

end ModuleEntry

namespace ModuleTable

/-- Two tables have modules under the same keys, which differ at most in what their unresolved
statements say. -/
structure Alike (table other : ModuleTable) : Prop where
  keys : other.keys = table.keys
  entries : ∀ key entry, table.get? key = some entry →
    ∃ entry', other.get? key = some entry' ∧ entry.Alike entry'

namespace Alike

variable {table other : ModuleTable} (h : table.Alike other)

include h

theorem contains_eq (key : ModuleKey) :
    other.modules.contains key = table.modules.contains key := by
  rw [Bool.eq_iff_iff, Registry.contains_iff, Registry.contains_iff]
  exact iff_of_eq (congrArg (key ∈ ·) h.keys)

theorem get?_eq_none {key : ModuleKey} (hnone : table.get? key = none) : other.get? key = none := by
  have hkey : key ∉ table.keys := Registry.get?_eq_none_iff.mp hnone
  rw [← h.keys] at hkey
  exact Registry.get?_eq_none_iff.mpr hkey

theorem graph_eq : other.graph = table.graph := by
  have hneighbours : ∀ key, other.neighbours key = table.neighbours key := by
    intro key
    cases hentry : table.get? key with
    | none => rw [neighbours, h.get?_eq_none hentry, neighbours, hentry]
    | some entry =>
        obtain ⟨entry', hentry', halike⟩ := h.entries key entry hentry
        simp only [neighbours, hentry, hentry', halike.targets_eq, funext h.contains_eq]
  simp only [graph, h.keys, hneighbours]

theorem repeats : table.Repeats other where
  components := h.graph_eq ▸ List.prefix_rfl
  isCyclic keys _ := by rw [h.graph_eq]
  surface key hkey := by
    obtain ⟨entry, hentry⟩ := Registry.mem_keys_iff.mp hkey
    have hentry : table.get? key = some entry := hentry
    obtain ⟨entry', hentry', halike⟩ := h.entries key entry hentry
    have hsurface := halike.surface_eq (filled_of_get? hentry) (filled_of_get? hentry')
    rw [hentry, hentry', Option.map_some, Option.map_some, hsurface]

theorem resolve_eq : other.resolve = table.resolve := h.repeats.resolve_eq h.keys

theorem item?_eq {binding : Binding} (hslot : binding.slot ≠ .whole) :
    other.item? binding = table.item? binding := by
  cases hentry : table.get? binding.origin with
  | none => rw [item?, item?, hentry, h.get?_eq_none hentry]
  | some entry =>
      obtain ⟨entry', hentry', halike⟩ := h.entries _ entry hentry
      have hitem := halike.item?_eq (filled_of_get? hentry) (filled_of_get? hentry') hslot
      rw [item?, item?, hentry, hentry', Option.bind_some, Option.bind_some, hitem]

end Alike

/-- No surface lists a module as a whole. -/
theorem keeps_slot_ne_whole (table : ModuleTable) :
    table.Keeps fun _ s => s.WellFormed ∧
      ∀ name binding, binding ∈ s.bindings name → binding.slot ≠ .whole where
  empty _ := ⟨Surface.wellFormed_empty, fun name binding h => by simp at h⟩
  surface _ entry source hentry hsource := by
    have hfilled := filled_of_get? hentry
    have hwell := fun other => (hsource other).1
    refine ⟨entry.wellFormed_surface source, fun name binding hbinding => ?_⟩
    obtain ⟨-, hgives⟩ := ModuleEntry.gives_of_mem_bindings_surface hfilled hwell hbinding
    cases hgives with
    | exports hexports => exact fun heq => entry.whole_notMem_slots (heq ▸ hexports.mem_slots hfilled)
    | passes _ hgiven => exact (hsource _).2 _ _ hgiven

/-- The table with its unresolved statements silenced. -/
def withoutUnresolved (table : ModuleTable) : ModuleTable where
  modules := table.modules.mapValues fun _ entry => entry.withoutUnresolved
  keyed pair hpair := by
    obtain ⟨before, hbefore, rfl⟩ := List.mem_map.mp hpair
    exact table.keyed before hbefore
  filled pair hpair := by
    obtain ⟨before, -, rfl⟩ := List.mem_map.mp hpair
    exact ModuleEntry.filled_ofTargets _ _ _ _ _

theorem alike_withoutUnresolved (table : ModuleTable) : table.Alike table.withoutUnresolved where
  keys := Registry.keys_mapValues _ _
  entries key entry hentry := by
    refine ⟨entry.withoutUnresolved, ?_, entry.alike_withoutUnresolved⟩
    have hentry : table.modules.get? key = some entry := hentry
    rw [get?, withoutUnresolved, Registry.get?_mapValues, hentry, Option.map_some]

/-- What unresolved statements say cannot be seen in any surface. Tables that differ in nothing else have
the same surfaces, with the same names and bindings in the same order, and their bindings refer to the
same items. So an unresolved statement may as well name nothing: it hides no later import, and drops
no more than its own names. -/
theorem resolve_eq_of_alike {table other : ModuleTable} (h : table.Alike other) :
    other.resolve = table.resolve ∧
      (∀ key name binding, binding ∈ (table.resolve.source key).bindings name →
        other.item? binding = table.item? binding) ∧
      table.withoutUnresolved.resolve = table.resolve := by
  refine ⟨h.resolve_eq, fun key name binding hbinding => ?_, (alike_withoutUnresolved table).resolve_eq⟩
  exact h.item?_eq ((table.keeps_slot_ne_whole.resolve key).2 name binding hbinding)

/-- A file that imports a name first from a module that is not known and then from one that is, and
exports it. -/
def misspelt : ModuleTable :=
  .build false
    [workspaceFile "a" []
        [.named "./bb" [⟨"x", none⟩] none false default, .named "./b" [⟨"x", none⟩] none false default]
        [.all "./cc" none default, .named none [⟨"x", none⟩] false default],
      workspaceFile "b" [exportedConstant "x"] [] []]

theorem misspelt_resolve :
    misspelt.Alike misspelt.withoutUnresolved ∧
      (misspelt.withoutUnresolved.get? "/a").map (·.resource.imports) =
        some [.bare "./bb" default, .named "./b" [⟨"x", none⟩] none false default] ∧
      (misspelt.resolve.source "/a").bindings "x" = [⟨"/b", .declared 0⟩] ∧
      misspelt.withoutUnresolved.resolve = misspelt.resolve :=
  ⟨alike_withoutUnresolved misspelt, by decide +kernel, by decide +kernel,
    (resolve_eq_of_alike (alike_withoutUnresolved misspelt)).1⟩

end ModuleTable

end ExportIndex
