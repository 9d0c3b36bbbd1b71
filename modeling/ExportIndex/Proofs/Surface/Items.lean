import ExportIndex.Resolution
import ExportIndex.Proofs.Surface.Dependence
import Mathlib.Data.List.ProdSigma

/-!
# Items and names of a table

A surface lists items of the table's modules, under names that occur in the table. There are
finitely many of both, which bounds how many bindings a surface lists.
-/

namespace ExportIndex

namespace ModuleEntry

variable {entry : ModuleEntry} {name : String}

/-! ## Items -/

/-- The places that can be bound to a name are those where an item stands, besides the module as a
whole. -/
theorem mem_slots_iff {slot : Slot} :
    slot ∈ entry.slots ↔ slot ≠ .whole ∧ (entry.item? slot).isSome := by
  cases slot with
  | declared index => simp [slots, item?]
  | nested index => simp [slots, item?]
  | starExport index => simp [slots, item?, Registry.mem_keys_iff, Option.isSome_iff_exists]
  | moduleImport index => simp [slots, item?, Registry.mem_keys_iff, Option.isSome_iff_exists]
  | whole => simp [slots]

theorem whole_notMem_slots (entry : ModuleEntry) : .whole ∉ entry.slots :=
  fun h => (mem_slots_iff.mp h).1 rfl

section Filled

variable (hfilled : entry.Filled)

include hfilled

theorem declared_mem_slots {index : Nat} {d : Declaration}
    (hd : entry.resource.declarations[index]? = some d) : .declared index ∈ entry.slots :=
  mem_slots_iff.mpr ⟨Slot.noConfusion, by simp [item?, hfilled.locals_eq, hd]⟩

theorem nested_mem_slots {index : Nat} {r : Resource}
    (hr : entry.resource.resources[index]? = some r) : .nested index ∈ entry.slots :=
  mem_slots_iff.mpr ⟨Slot.noConfusion, by simp [item?, hfilled.nested_eq, hr]⟩

theorem Owns.mem_slots {slot : Slot} (h : entry.Owns name slot) : slot ∈ entry.slots := by
  cases h with
  | declaration hd hdefault hname => exact declared_mem_slots hfilled hd
  | nested hr hname => exact nested_mem_slots hfilled hr

/-- Whatever a module exports is one of its items. -/
theorem Exports.mem_slots {slot : Slot} (h : entry.Exports name slot) : slot ∈ entry.slots := by
  cases h with
  | ofDefault hd hdefault => exact declared_mem_slots hfilled hd
  | declaration hd hdefault hexported hname => exact declared_mem_slots hfilled hd
  | nested hr hexported hname => exact nested_mem_slots hfilled hr
  | star he htarget =>
      exact mem_slots_iff.mpr ⟨Slot.noConfusion, hfilled.isSome_item?_starExport he htarget⟩
  | clause he hs hown => exact hown.mem_slots hfilled
  | clauseModule he hs hown himport =>
      exact mem_slots_iff.mpr ⟨Slot.noConfusion, himport.isSome_item? hfilled⟩

end Filled

end ModuleEntry

namespace ModuleTable

variable {table : ModuleTable} {entry : ModuleEntry} {name : String}

theorem mem_entries_iff : entry ∈ table.entries ↔ ∃ key, table.get? key = some entry := by
  constructor
  · intro h
    obtain ⟨⟨key, _⟩, hpair, rfl⟩ := List.mem_map.mp h
    exact ⟨key, Registry.get?_eq_some_iff.mpr hpair⟩
  · rintro ⟨key, hentry⟩
    exact List.mem_map.mpr ⟨_, Registry.get?_eq_some_iff.mp hentry, rfl⟩

theorem mem_entries_of_get? {key : ModuleKey} (h : table.get? key = some entry) :
    entry ∈ table.entries :=
  mem_entries_iff.mpr ⟨key, h⟩

theorem filled_of_get? {key : ModuleKey} (h : table.get? key = some entry) : entry.Filled :=
  table.filled _ (Registry.get?_eq_some_iff.mp h)

theorem filled_of_mem_entries (h : entry ∈ table.entries) : entry.Filled := by
  obtain ⟨key, hentry⟩ := mem_entries_iff.mp h
  exact filled_of_get? hentry

theorem mem_allBindings_of_exports {key : ModuleKey} {slot : Slot} (hentry : table.get? key = some entry)
    (h : entry.Exports name slot) : entry.binding slot ∈ table.allBindings :=
  List.mem_flatMap.mpr ⟨entry, mem_entries_of_get? hentry,
    List.mem_map_of_mem (h.mem_slots (filled_of_get? hentry))⟩

/-! ## Names -/

theorem mem_allNames_iff :
    name ∈ table.allNames.toList ↔ ∃ entry ∈ table.entries,
      (∃ d ∈ entry.resource.declarations, d.name? = some name) ∨
        (∃ r ∈ entry.resource.resources, r.name? = some name) ∨
          ∃ e ∈ entry.resource.exports, name ∈ exportNames e := by
  simp [allNames]

theorem localName_mem_exportNames {source? : Option String} {specifiers : List SymbolSpecifier}
    {isTypeOnly : Bool} {span : Span} {s : SymbolSpecifier} (hs : s ∈ specifiers) :
    s.localName ∈ exportNames (.named source? specifiers isTypeOnly span) := by
  refine List.mem_flatMap.mpr ⟨s, hs, ?_⟩
  unfold SymbolSpecifier.localName
  cases s.rename? <;> simp

theorem mem_allNames_of_specifier {index : Nat} {source? : Option String}
    {specifiers : List SymbolSpecifier} {isTypeOnly : Bool} {span : Span} {s : SymbolSpecifier}
    (hentry : entry ∈ table.entries)
    (he : entry.resource.exports[index]? = some (.named source? specifiers isTypeOnly span))
    (hs : s ∈ specifiers) : s.localName ∈ table.allNames.toList :=
  mem_allNames_iff.mpr ⟨entry, hentry,
    .inr (.inr ⟨_, List.mem_of_getElem? he, localName_mem_exportNames hs⟩)⟩

/-- A module exports its items under names of the table, or as its default. -/
theorem mem_allNames_of_exports {slot : Slot} (hentry : entry ∈ table.entries)
    (h : entry.Exports name slot) : name = defaultName ∨ name ∈ table.allNames.toList := by
  cases h with
  | ofDefault hd hdefault => exact .inl rfl
  | declaration hd hdefault hexported hname =>
      exact .inr (mem_allNames_iff.mpr
        ⟨entry, hentry, .inl ⟨_, List.mem_of_getElem? hd, hname⟩⟩)
  | nested hr hexported hname =>
      exact .inr (mem_allNames_iff.mpr
        ⟨entry, hentry, .inr (.inl ⟨_, List.mem_of_getElem? hr, hname⟩)⟩)
  | star he htarget =>
      exact .inr (mem_allNames_iff.mpr
        ⟨entry, hentry, .inr (.inr ⟨_, List.mem_of_getElem? he, by simp [exportNames]⟩)⟩)
  | clause he hs hown => exact .inr (mem_allNames_of_specifier hentry he hs)
  | clauseModule he hs hown himport => exact .inr (mem_allNames_of_specifier hentry he hs)

/-- A module passes bindings on under their old name or a name of the table. -/
theorem mem_allNames_of_passes {target : ModuleKey} {original : String}
    (hentry : entry ∈ table.entries) (h : entry.Passes name target original) :
    name = original ∨ name ∈ table.allNames.toList := by
  cases h with
  | star he htarget hname => exact .inl rfl
  | reexport he htarget hs => exact .inr (mem_allNames_of_specifier hentry he hs)
  | clauseImport he hs hown himport => exact .inr (mem_allNames_of_specifier hentry he hs)

end ModuleTable

namespace Surface

/-- Every listed binding is among some bindings, and every name among some names. -/
structure Over (bindings : List Binding) (names : List String) (s : Surface) : Prop where
  wellFormed : s.WellFormed
  binding_mem : ∀ name binding, binding ∈ s.bindings name → binding ∈ bindings
  name_mem : ∀ name binding, binding ∈ s.bindings name → name = defaultName ∨ name ∈ names

variable {bindings : List Binding} {names : List String}

theorem over_empty : empty.Over bindings names where
  wellFormed := wellFormed_empty
  binding_mem name binding h := by simp at h
  name_mem name binding h := by simp at h

/-- Besides the default binding, a surface lists at most every binding under every name. -/
theorem Over.bindingCount_le {s : Surface} (h : s.Over bindings names) :
    s.bindingCount ≤ 1 + bindings.length * names.length := by
  have hdefault : s.default?.toList.length ≤ 1 := by cases s.default? <;> simp
  have hsubset : s.namedOffers ⊆
      (bindings ×ˢ names).map fun pair => Offer.mk pair.2 pair.1 := by
    intro offer hoffer
    obtain ⟨hname, hbinding⟩ := (mem_namedOffers_iff h.wellFormed).mp hoffer
    exact List.mem_map.mpr ⟨(offer.binding, offer.name), List.mem_product.mpr
      ⟨h.binding_mem _ _ hbinding, (h.name_mem _ _ hbinding).resolve_left hname⟩, rfl⟩
  -- nothing is listed twice, so the named bindings are at most as many as such pairs
  have hnamed := (List.subperm_of_subset (nodup_namedOffers h.wellFormed) hsubset).length_le
  rw [List.length_map, List.length_product] at hnamed
  rw [bindingCount]
  omega

end Surface

end ExportIndex
