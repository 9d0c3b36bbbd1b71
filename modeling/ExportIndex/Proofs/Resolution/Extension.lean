import ExportIndex.Proofs.Graph.Extension
import ExportIndex.Proofs.Resolution.Steps

/-!
# Tables with further modules

A larger table may begin with the modules of a table, none of which names one of the further modules.
The components of the first modules then come first in the larger table, and every step of their
resolution is the same, in cycles too. The further modules may name the first ones; that changes
nothing for these.
-/

namespace ExportIndex.ModuleTable

/-- A larger table begins with the modules of a table, and these name modules of the table only. -/
structure Begins (table larger : ModuleTable) : Prop where
  entries : table.modules.entries <+: larger.modules.entries
  targets : ∀ entry ∈ table.entries, ∀ target ∈ entry.targets, target ∈ table.keys

namespace Begins

variable {table larger : ModuleTable} (h : table.Begins larger)

include h

theorem keys : table.keys <+: larger.keys := h.entries.map Prod.fst

theorem get?_eq {key : ModuleKey} (hkey : key ∈ table.keys) : larger.get? key = table.get? key := by
  obtain ⟨entry, hentry⟩ := Registry.mem_keys_iff.mp hkey
  have hmem := h.entries.subset (Registry.get?_eq_some_iff.mp hentry)
  exact (Registry.get?_eq_some_iff.mpr hmem).trans hentry.symm

theorem neighbours_eq {key : ModuleKey} (hkey : key ∈ table.keys) :
    larger.neighbours key = table.neighbours key := by
  obtain ⟨entry, hentry⟩ := Registry.mem_keys_iff.mp hkey
  have hentry : table.get? key = some entry := hentry
  have hknown : ∀ target ∈ entry.targets, target ∈ table.keys :=
    h.targets entry (mem_entries_of_get? hentry)
  have htable : entry.targets.filter table.modules.contains = entry.targets :=
    List.filter_eq_self.mpr fun target htarget =>
      Registry.contains_iff.mpr (hknown target htarget)
  have hlarger : entry.targets.filter larger.modules.contains = entry.targets :=
    List.filter_eq_self.mpr fun target htarget =>
      Registry.contains_iff.mpr (h.keys.subset (hknown target htarget))
  rw [neighbours, neighbours, h.get?_eq hkey, hentry]
  simp only [htable, hlarger]

theorem graph : table.graph.Begins larger.graph where
  nodes := h.keys
  neighbours _ hkey := congrArg List.reverse (h.neighbours_eq hkey)

theorem components : table.graph.components <+: larger.graph.components :=
  h.graph.components table.closed_graph larger.closed_graph

theorem surface_eq {key : ModuleKey} (hkey : key ∈ table.keys) :
    (larger.get? key).map ModuleEntry.surface = (table.get? key).map ModuleEntry.surface :=
  congrArg (Option.map ModuleEntry.surface) (h.get?_eq hkey)

theorem repeats : table.Repeats larger where
  components := h.components
  isCyclic _ hkeys := h.graph.isCyclic_eq hkeys
  surface _ hkey := h.surface_eq hkey

theorem source_resolve_eq {key : ModuleKey} (hkey : key ∈ table.keys) :
    larger.resolve.source key = table.resolve.source key :=
  h.repeats.source_resolve_eq hkey

end Begins

/-- Modules that come later in a table and that no earlier module names do not disturb the earlier
ones: resolving the larger table gives each of these the surface that resolving them alone gives, with
the same names and bindings in the same order. -/
theorem resolve_entries_prefix {table larger : ModuleTable} (h : table.Begins larger) :
    table.resolve.entries <+: larger.resolve.entries := by
  obtain ⟨further, hfurther⟩ := h.keys
  have hfirst : (table.keys.map fun key => (key, larger.resolve.source key)) =
      table.keys.map fun key => (key, table.resolve.source key) :=
    List.map_congr_left fun key hkey => by rw [h.source_resolve_eq hkey]
  rw [Surfaces.entries_eq_map_source, Surfaces.entries_eq_map_source, keys_resolve, keys_resolve,
    ← hfurther, List.map_append, hfirst]
  exact List.prefix_append _ _

/-- A file that exports what the first of two files exports. -/
def readerOfBarrels : ModuleEntry :=
  .ofResource (fun key => key = "/a" ∨ key = "/b" ∨ key = "/c") none "/c"
    (workspaceFile "c" [] [] [.all "./a" none default])

/-- Two files that export from each other, and a third that exports from them. -/
def readBarrels : ModuleTable where
  modules := mutualBarrels.modules.insert "/c" readerOfBarrels
  keyed pair hpair := by
    rcases Registry.mem_upsertEntries hpair with hpair | ⟨_, rfl⟩
    · exact mutualBarrels.keyed pair hpair
    · rfl
  filled pair hpair := by
    rcases Registry.mem_upsertEntries hpair with hpair | ⟨_, rfl⟩
    · exact mutualBarrels.filled pair hpair
    · rfl

theorem begins_readBarrels : mutualBarrels.Begins readBarrels where
  entries := by
    have hnew : "/c" ∉ mutualBarrels.modules.keys := by decide +kernel
    exact ⟨_, (Registry.entries_insert_of_notMem hnew readerOfBarrels).symm⟩
  targets := by decide +kernel

theorem readBarrels_prefix :
    mutualBarrels.Begins readBarrels ∧ readerOfBarrels.targets = ["/a"] ∧
      mutualBarrels.resolve.entries <+: readBarrels.resolve.entries :=
  ⟨begins_readBarrels, by decide +kernel, resolve_entries_prefix begins_readBarrels⟩

end ExportIndex.ModuleTable
