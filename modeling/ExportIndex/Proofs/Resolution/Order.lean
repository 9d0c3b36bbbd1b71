import ExportIndex.Proofs.Resolution.Invariant
import Mathlib.Data.List.Induction

/-!
# Components one after another

A component changes the surfaces of its own members only, and everything that a member is computed
from is final when its component is done. So what holds of the surfaces of a component when it was
resolved holds in the end.
-/

namespace ExportIndex.ModuleTable

variable {table : ModuleTable}

theorem source_resolveComponent_of_notMem (done : Surfaces) {keys : List ModuleKey}
    (hnodup : keys.Nodup) {key : ModuleKey} (hkey : key ∉ keys) :
    (table.resolveComponent done keys).source key = done.source key := by
  unfold resolveComponent
  split
  · obtain ⟨rounds, hresult⟩ := exists_cycleResult_eq table done keys
    rw [source_resolveCycle, hresult]
    exact cycleSource_of_notMem table done hnodup hkey rounds
  · rw [source_foldl_resolveModule, foldl_revise_of_notMem table keys _ hkey]

theorem resolved_append (before later : List (List ModuleKey)) :
    table.resolved (before ++ later) = later.foldl table.resolveComponent (table.resolved before) :=
  List.foldl_append

theorem resolved_concat (before : List (List ModuleKey)) (keys : List ModuleKey) :
    table.resolved (before ++ [keys]) = table.resolveComponent (table.resolved before) keys :=
  resolved_append before [keys]

/-- Later components do not change the surface of a module that they do not hold. -/
theorem source_resolved_append (before : List (List ModuleKey)) {later : List (List ModuleKey)}
    (hlater : later ⊆ table.graph.components) {key : ModuleKey}
    (hkey : ∀ keys ∈ later, key ∉ keys) :
    (table.resolved (before ++ later)).source key = (table.resolved before).source key := by
  induction later generalizing before with
  | nil => rw [List.append_nil]
  | cons keys rest ih =>
      have hrest := ih (before ++ [keys])
        (fun other hother => hlater (List.mem_cons_of_mem _ hother))
        fun other hother => hkey other (List.mem_cons_of_mem _ hother)
      rw [← List.append_cons] at hrest
      rw [hrest, resolved_concat]
      exact source_resolveComponent_of_notMem _
        (nodup_of_mem_components (hlater List.mem_cons_self)) (hkey keys List.mem_cons_self)

/-- What holds before the first component, and after a component if it held before, holds after any
number of components. -/
theorem components_induction {motive : List (List ModuleKey) → Prop} (hnil : motive [])
    (hconcat : ∀ before keys after, table.graph.components = before ++ keys :: after →
      motive before → motive (before ++ [keys]))
    {before after : List (List ModuleKey)} (hsplit : table.graph.components = before ++ after) :
    motive before := by
  induction before using List.reverseRecOn generalizing after with
  | nil => exact hnil
  | append_singleton before keys ih =>
      rw [List.append_assoc] at hsplit
      exact hconcat before keys after hsplit (ih hsplit)

theorem source_resolved_of_notMem_keys {components : List (List ModuleKey)}
    (hcomponents : components ⊆ table.graph.components) {key : ModuleKey} (hkey : key ∉ table.keys) :
    (table.resolved components).source key = .empty := by
  have hnone : ∀ keys ∈ components, key ∉ keys := fun keys hkeys hmem =>
    hkey (Graph.mem_nodes_of_mem_component table.closed_graph (hcomponents hkeys) hmem)
  exact source_resolved_append [] hcomponents hnone

theorem source_resolve_eq (table : ModuleTable) :
    table.resolve.source = (table.resolved table.graph.components).source := by
  funext key
  by_cases hkey : key ∈ table.keys
  · exact source_resolve table hkey
  · rw [source_resolve_of_notMem table hkey,
      source_resolved_of_notMem_keys (List.Subset.refl _) hkey]

/-- What is known of a module of some components when they are done is final. -/
theorem source_resolve_of_append {before after : List (List ModuleKey)}
    (hsplit : table.graph.components = before ++ after) {component : List ModuleKey}
    (hcomponent : component ∈ before) {key : ModuleKey} (hkey : key ∈ component) :
    table.resolve.source key = (table.resolved before).source key := by
  have hdisjoint := Graph.pairwise_disjoint_components table.closed_graph
  rw [hsplit] at hdisjoint
  -- components are disjoint, so that no later one holds the module
  have hlater : ∀ later ∈ after, key ∉ later := fun later hlater hmem =>
    (List.pairwise_append.mp hdisjoint).2.2 component hcomponent later hlater hkey hmem
  have hafter : after ⊆ table.graph.components := hsplit ▸ List.subset_append_right _ _
  rw [source_resolve_eq, hsplit]
  exact source_resolved_append _ hafter hlater

section Split

variable {before after : List (List ModuleKey)} {keys : List ModuleKey}
  (hsplit : table.graph.components = before ++ keys :: after)

include hsplit

theorem components_eq_concat : table.graph.components = before ++ [keys] ++ after :=
  hsplit.trans (List.append_cons before keys after)

theorem before_concat_subset : before ++ [keys] ⊆ table.graph.components := by
  rw [components_eq_concat hsplit]
  exact List.subset_append_left _ _

theorem before_subset_of_split : before ⊆ table.graph.components := by
  rw [hsplit]
  exact List.subset_append_left _ _

theorem mem_components_of_split : keys ∈ table.graph.components :=
  before_concat_subset hsplit (List.mem_append_right _ List.mem_cons_self)

theorem nodup_of_split : keys.Nodup := nodup_of_mem_components (mem_components_of_split hsplit)

theorem subset_keys_of_split : keys ⊆ table.keys := fun _ hkey =>
  Graph.mem_nodes_of_mem_component table.closed_graph (mem_components_of_split hsplit) hkey

theorem source_resolve_of_split {key : ModuleKey}
    (hkey : key ∈ keys ∨ ∃ earlier ∈ before, key ∈ earlier) :
    table.resolve.source key = (table.resolved (before ++ [keys])).source key := by
  rcases hkey with hkey | ⟨earlier, hearlier, hkey⟩
  · exact source_resolve_of_append (components_eq_concat hsplit)
      (List.mem_append_right _ List.mem_cons_self) hkey
  · exact source_resolve_of_append (components_eq_concat hsplit)
      (List.mem_append_left _ hearlier) hkey

/-- Whatever a member of a component is computed from is final when the component is done. -/
theorem source_resolve_target {key target : ModuleKey} (hkey : key ∈ keys) {entry : ModuleEntry}
    (hentry : table.get? key = some entry) (htarget : target ∈ entry.targets) :
    table.resolve.source target = (table.resolved (before ++ [keys])).source target := by
  -- a target outside the table never has a surface
  by_cases hknown : target ∈ table.keys
  · have hneighbour := (mem_neighbours_iff hentry).mpr ⟨htarget, hknown⟩
    exact source_resolve_of_split hsplit
      (Graph.mem_component_or_earlier table.closed_graph hsplit hkey hneighbour)
  · rw [source_resolve_of_notMem table hknown,
      source_resolved_of_notMem_keys (before_concat_subset hsplit) hknown]

/-- What a member of a component is computed from is final before the component is resolved, apart
from the members themselves. -/
theorem source_resolve_outside {key target : ModuleKey} (hkey : key ∈ keys) {entry : ModuleEntry}
    (hentry : table.get? key = some entry) (htarget : target ∈ entry.targets)
    (houtside : target ∉ keys) :
    table.resolve.source target = (table.resolved before).source target := by
  rw [source_resolve_target hsplit hkey hentry htarget, resolved_concat]
  exact source_resolveComponent_of_notMem _ (nodup_of_split hsplit) houtside

/-- A module that lies on no cycle is computed once, from final surfaces. -/
theorem surface_resolve_of_acyclic (hcyclic : table.graph.isCyclic keys = false) {key : ModuleKey}
    (hkey : key ∈ keys) {entry : ModuleEntry} (hentry : table.get? key = some entry) :
    entry.surface table.resolve.source = table.resolve.source key := by
  obtain ⟨key, rfl, hself⟩ : ∃ node, keys = [node] ∧ node ∉ table.graph.neighbours node :=
    (Graph.isCyclic_eq_false_iff.mp hcyclic).resolve_left (List.ne_nil_of_mem hkey)
  obtain rfl := List.mem_singleton.mp hkey
  have hknown : key ∈ table.keys := Registry.mem_keys_iff.mpr ⟨entry, hentry⟩
  have hstored : table.resolve.source key = entry.surface (table.resolved before).source := by
    rw [source_resolve_of_split hsplit (.inl hkey), resolved_concat, resolveComponent, hcyclic,
      if_neg Bool.false_ne_true, source_foldl_resolveModule, List.foldl_cons, List.foldl_nil,
      revise_of_get? table hentry, Function.update_self]
  rw [hstored]
  apply ModuleEntry.surface_congr
  intro target htarget
  -- the module is no target of its own
  refine source_resolve_outside hsplit hkey hentry htarget fun hmem => ?_
  obtain rfl := List.mem_singleton.mp hmem
  exact hself ((mem_neighbours_iff hentry).mpr ⟨htarget, hknown⟩)

end Split

end ExportIndex.ModuleTable
