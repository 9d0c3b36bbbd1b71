import ExportIndex.Proofs.Collections.Registries
import ExportIndex.Proofs.Resolution.Bounds

/-!
# Tables that are resolved alike

Another table may compute the modules of a table in the same way and resolve its components first and
in the same order. Every step is then the same in both tables, in cycles too, and each of these modules
has the same surface in the end.
-/

namespace ExportIndex.ModuleTable

/-- Another table resolves the components of a table first, and computes its modules in the same way. -/
structure Repeats (table other : ModuleTable) : Prop where
  components : table.graph.components <+: other.graph.components
  isCyclic : ∀ keys ⊆ table.keys, other.graph.isCyclic keys = table.graph.isCyclic keys
  surface : ∀ key ∈ table.keys,
    (other.get? key).map ModuleEntry.surface = (table.get? key).map ModuleEntry.surface

namespace Repeats

variable {table other : ModuleTable} (h : table.Repeats other)

include h

theorem exists_entries {key : ModuleKey} (hkey : key ∈ table.keys) : ∃ entry entry',
    table.get? key = some entry ∧ other.get? key = some entry' ∧ entry'.surface = entry.surface := by
  obtain ⟨entry, hentry⟩ := Registry.mem_keys_iff.mp hkey
  have hentry : table.get? key = some entry := hentry
  have hsurface := h.surface key hkey
  rw [hentry, Option.map_some, Option.map_eq_some_iff] at hsurface
  obtain ⟨entry', hentry', heq⟩ := hsurface
  exact ⟨entry, entry', hentry, hentry', heq⟩

theorem recompute_eq (done pending : Surfaces) {key : ModuleKey} (hkey : key ∈ table.keys) :
    other.recompute done pending key = table.recompute done pending key := by
  obtain ⟨entry, entry', hentry, hentry', hsurface⟩ := h.exists_entries hkey
  simp only [recompute, hentry, hentry', hsurface]

theorem round_eq (done : Surfaces) {keys : List ModuleKey} (hkeys : keys ⊆ table.keys) :
    other.round done keys = table.round done keys := by
  funext pending
  exact List.foldl_ext _ _ _ fun pending _ hkey => h.recompute_eq done pending (hkeys hkey)

theorem resolveModule_eq (done : Surfaces) {key : ModuleKey} (hkey : key ∈ table.keys) :
    other.resolveModule done key = table.resolveModule done key := by
  obtain ⟨entry, entry', hentry, hentry', hsurface⟩ := h.exists_entries hkey
  simp only [resolveModule, hentry, hentry', hsurface]

theorem foldl_resolveModule_eq (done : Surfaces) {keys : List ModuleKey}
    (hkeys : keys ⊆ table.keys) :
    keys.foldl other.resolveModule done = keys.foldl table.resolveModule done :=
  List.foldl_ext _ _ _ fun done _ hkey => h.resolveModule_eq done (hkeys hkey)

section Split

variable {before after : List (List ModuleKey)} {keys : List ModuleKey}
  (hsplit : table.graph.components = before ++ keys :: after)

include hsplit

/-- The loops of both tables may run different numbers of rounds, but both end of themselves. -/
theorem cycleResult_eq (hbefore : other.resolved before = table.resolved before) :
    other.cycleResult (table.resolved before) keys =
      table.cycleResult (table.resolved before) keys := by
  obtain ⟨further, hfurther⟩ := h.components
  have hsplit' : other.graph.components = before ++ keys :: (after ++ further) := by
    simp [← hfurther, hsplit]
  obtain ⟨rounds, htable, hother⟩ :
      ∃ rounds, table.bindingLimit keys < rounds ∧ other.bindingLimit keys < rounds :=
    ⟨max (table.bindingLimit keys) (other.bindingLimit keys) + 1, by omega, by omega⟩
  have hends := settle_eq_cycleResult hsplit htable
  have hends' := settle_eq_cycleResult hsplit' hother
  rw [hbefore, h.round_eq _ (subset_keys_of_split hsplit)] at hends'
  exact hends'.symm.trans hends

theorem resolveComponent_eq (hbefore : other.resolved before = table.resolved before) :
    other.resolveComponent (table.resolved before) keys =
      table.resolveComponent (table.resolved before) keys := by
  have hkeys := subset_keys_of_split hsplit
  rw [resolveComponent, resolveComponent, h.isCyclic keys hkeys, h.foldl_resolveModule_eq _ hkeys]
  congr 1
  have hresult := h.cycleResult_eq hsplit hbefore
  unfold cycleResult cycleStart at hresult
  simp only [resolveCycle, hresult]

end Split

theorem resolved_eq {before after : List (List ModuleKey)}
    (hsplit : table.graph.components = before ++ after) :
    other.resolved before = table.resolved before := by
  refine components_induction (motive := fun before =>
    other.resolved before = table.resolved before) rfl ?_ hsplit
  intro before keys after hsplit hbefore
  rw [resolved_concat, resolved_concat, hbefore, h.resolveComponent_eq hsplit hbefore]

theorem source_resolve_eq {key : ModuleKey} (hkey : key ∈ table.keys) :
    other.resolve.source key = table.resolve.source key := by
  obtain ⟨further, hfurther⟩ := h.components
  obtain ⟨component, hcomponent, hmem⟩ :=
    Graph.exists_component_of_mem_nodes table.closed_graph hkey
  rw [source_resolve_of_append hfurther.symm hcomponent hmem,
    h.resolved_eq (List.append_nil _).symm, source_resolve table hkey]

/-- A table with the same keys that is resolved alike has the same surfaces. -/
theorem resolve_eq (hkeys : other.keys = table.keys) : other.resolve = table.resolve := by
  apply Registry.ext_entries
  rw [Surfaces.entries_eq_map_source, Surfaces.entries_eq_map_source, keys_resolve, keys_resolve, hkeys]
  exact List.map_congr_left fun key hkey => by rw [h.source_resolve_eq hkey]

end Repeats

end ExportIndex.ModuleTable
