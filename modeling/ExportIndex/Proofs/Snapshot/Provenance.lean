import ExportIndex.Proofs.Resolution.Bounds
import ExportIndex.Proofs.Snapshot.Assembly
import Mathlib.Logic.Relation

/-!
# Where the entries of a snapshot come from

Every binding that a module lists at any time is an item that some module exports, handed on from
there module by module. Every round of a cycle keeps this, also for bindings that a later round
replaces.
-/

namespace ExportIndex

namespace ModuleTable

open Relation

/-- A module passes on, under a name, what another module lists under some name. -/
def Hop (table : ModuleTable) : ModuleKey × String → ModuleKey × String → Prop
  | (key, name), (target, original) =>
    ∃ entry, table.get? key = some entry ∧ entry.AssignsNothing ∧
      entry.Passes name target original

/-- A binding refers to an item that its module exports under some name and that a chain of modules
passes on from there. -/
structure HandedOn (table : ModuleTable) (key : ModuleKey) (name : String) (binding : Binding)
    (entry : ModuleEntry) (original : String) : Prop where
  get?_origin : table.get? binding.origin = some entry
  exports : entry.AssignsNothing ∧ entry.Exports original binding.slot
  chain : ReflTransGen table.Hop (key, name) (binding.origin, original)

variable {table : ModuleTable}

/-- At any time, surfaces list only what was handed on. -/
theorem keeps_handedOn (table : ModuleTable) :
    table.Keeps fun key s => s.WellFormed ∧ ∀ name binding, binding ∈ s.bindings name →
      ∃ entry original, table.HandedOn key name binding entry original where
  empty key := ⟨Surface.wellFormed_empty, fun name binding h => by simp at h⟩
  surface key entry source hentry hsource := by
    have hwell := fun other => (hsource other).1
    refine ⟨entry.wellFormed_surface source, fun name binding hbinding => ?_⟩
    obtain ⟨hassigned, hgives⟩ :=
      ModuleEntry.gives_of_mem_bindings_surface (filled_of_get? hentry) hwell hbinding
    have hassigned := ModuleEntry.assignsNothing_iff.mpr hassigned
    cases hgives with
    | exports hexports =>
        obtain rfl := key_of_get? hentry
        exact ⟨entry, name, hentry, ⟨hassigned, hexports⟩, .refl⟩
    | passes hpasses hgiven =>
        -- the chain of the target grows by one module at its head
        obtain ⟨first, given, horigin, hexports, hchain⟩ := (hsource _).2 _ _ hgiven
        exact ⟨first, given, horigin, hexports, hchain.head ⟨entry, hentry, hassigned, hpasses⟩⟩

/-- An entry of a snapshot under a name lists an item of its origin, which exports the item under some
name. A chain of modules passes it on from there to the provider, renamed on the way. -/
structure Traced (table : ModuleTable) (name : String) (info : DeclarationInfo) : Prop where
  provider_mem : info.provider ∈ table.keys
  origin_mem : info.origin ∈ table.keys
  origin_eq : info.binding.origin = info.origin
  handedOn : ∃ entry original, table.HandedOn info.provider name info.binding entry original ∧
    info.binding.slot ∈ entry.slots ∧ entry.item? info.binding.slot = some info.declaration

section Entry

variable {key : ModuleKey} {surface : Surface} (hentry : (key, surface) ∈ table.resolve.entries)

include hentry

theorem source_resolve_of_mem : table.resolve.source key = surface :=
  Surfaces.source_of_get? (Registry.get?_eq_some_iff.mpr hentry)

theorem mem_keys_of_mem_resolve : key ∈ table.keys := by
  have hmem : key ∈ table.resolve.keys := List.mem_map_of_mem hentry
  rwa [resolve, Registry.keys_mapValues] at hmem

theorem traced_of_mem_resolve {name : String} {binding : Binding}
    (hbinding : binding ∈ surface.bindings name) {info : DeclarationInfo}
    (hinfo : table.info? key binding = some info) : table.Traced name info := by
  have hlisted := (table.keeps_handedOn.resolve key).2
  rw [source_resolve_of_mem hentry] at hlisted
  obtain ⟨entry, original, hhanded⟩ := hlisted name binding hbinding
  obtain ⟨rfl, rfl, horigin, hitem⟩ := info?_eq_some hinfo
  have hmem : info.binding.origin ∈ table.keys :=
    Registry.mem_keys_iff.mpr ⟨entry, hhanded.get?_origin⟩
  rw [item?, hhanded.get?_origin, Option.bind_some] at hitem
  exact ⟨mem_keys_of_mem_resolve hentry, horigin ▸ hmem, horigin.symm, entry, original, hhanded,
    hhanded.exports.2.mem_slots (filled_of_get? hhanded.get?_origin), hitem⟩

end Entry

end ModuleTable

namespace Snapshot

/-- No entry of a snapshot is invented: apart from modules that are offered as a whole, everything in
the index and every default is traced back to the module that it comes from. -/
theorem assemble_resolve_traced (table : ModuleTable) :
    (∀ name, ∀ info ∈ (assemble table table.resolve).lookup name,
      (∃ entry ∈ table.entries, ModuleTable.wholeInfo? entry = some (name, info)) ∨
        table.Traced name info) ∧
    ∀ key info, (assemble table table.resolve).default? key = some info →
      info.provider = key ∧ table.Traced defaultName info := by
  constructor
  · intro name info hinfo
    rcases mem_lookup_assemble hinfo with ⟨key, surface, hentry, hnamed⟩ | hwhole
    · obtain ⟨binding, hoffer, hfound⟩ := ModuleTable.mem_namedInfos_iff.mp hnamed
      have hwell := table.keeps_wellFormed.resolve key
      rw [ModuleTable.source_resolve_of_mem hentry] at hwell
      have hbinding := ((Surface.mem_namedOffers_iff hwell).mp hoffer).2
      exact .inr (ModuleTable.traced_of_mem_resolve hentry hbinding hfound)
    · exact .inl hwhole
  · intro key info hinfo
    obtain ⟨surface, binding, hentry, hdefault, hfound⟩ := default?_assemble hinfo
    obtain ⟨-, hprovider, -, -⟩ := ModuleTable.info?_eq_some hfound
    exact ⟨hprovider, ModuleTable.traced_of_mem_resolve hentry
      (Surface.mem_bindings_default.mpr hdefault) hfound⟩

/-- The entry of `y` for `a` is traced back through `b`. -/
theorem mutualBarrels_traced :
    ∃ info ∈ (assemble ModuleTable.mutualBarrels ModuleTable.mutualBarrels.resolve).lookup "y",
      info.provider = "/a" ∧ ModuleTable.mutualBarrels.Traced "y" info := by
  have hlisted : ∃ info ∈
      (assemble ModuleTable.mutualBarrels ModuleTable.mutualBarrels.resolve).lookup "y",
        info.provider = "/a" := by
    decide +kernel
  have hwhole : ∀ entry ∈ ModuleTable.mutualBarrels.entries,
      (ModuleTable.wholeInfo? entry).isNone := by
    decide +kernel
  obtain ⟨info, hinfo, hprovider⟩ := hlisted
  refine ⟨info, hinfo, hprovider, ?_⟩
  apply ((assemble_resolve_traced _).1 "y" info hinfo).resolve_left
  rintro ⟨entry, hentry, hsome⟩
  simpa [hsome] using hwhole entry hentry

end Snapshot

end ExportIndex
