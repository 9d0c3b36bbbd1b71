import ExportIndex.Proofs.Resolution.Order

/-!
# When surfaces are stored

Components are resolved one after another, and each stores the surface of every member once, as it is
in the end. Whatever a member is computed from was stored before or belongs to the same component, so
that a module on no cycle has exactly the surface that the surfaces of its targets give it.
-/

namespace ExportIndex.ModuleTable

variable {table : ModuleTable}

theorem keys_foldl_resolveModule {keys : List ModuleKey} {done : Surfaces}
    (hnodup : (done.keys ++ keys).Nodup) (hknown : ∀ key ∈ keys, key ∈ table.keys) :
    (keys.foldl table.resolveModule done).keys = done.keys ++ keys := by
  induction keys generalizing done with
  | nil => simp
  | cons key rest ih =>
      obtain ⟨entry, hentry⟩ := Registry.mem_keys_iff.mp (hknown key List.mem_cons_self)
      have hnew : key ∉ done.keys := fun hmem =>
        (List.nodup_append.mp hnodup).2.2 key hmem key List.mem_cons_self rfl
      have hkeys : (table.resolveModule done key).keys = done.keys ++ [key] := by
        have hget : table.get? key = some entry := hentry
        rw [resolveModule, hget]
        exact (Registry.keys_insert done key _).trans (if_neg hnew)
      rw [List.foldl_cons, ih (by simpa [hkeys] using hnodup)
        fun other hother => hknown other (List.mem_cons_of_mem _ hother), hkeys]
      simp

theorem keys_resolveCycle {keys : List ModuleKey} {done : Surfaces}
    (hnodup : (done.keys ++ keys).Nodup) :
    (table.resolveCycle done keys).keys = done.keys ++ keys := by
  obtain ⟨rounds, hresult⟩ := exists_cycleResult_eq table done keys
  have hkeys : (table.cycleResult done keys).keys = keys := by
    rw [hresult, keys_cycleState table done (List.nodup_append.mp hnodup).2.1]
  have hinsert := Registry.keys_foldl_insert (table.cycleResult done keys).entries done
    (by rwa [← Registry.keys, hkeys])
  rwa [← Registry.keys, hkeys] at hinsert

/-- A component stores a surface for each of its members. -/
theorem keys_resolveComponent {keys : List ModuleKey} {done : Surfaces}
    (hnodup : (done.keys ++ keys).Nodup) (hknown : ∀ key ∈ keys, key ∈ table.keys) :
    (table.resolveComponent done keys).keys = done.keys ++ keys := by
  unfold resolveComponent
  split
  · exact keys_resolveCycle hnodup
  · exact keys_foldl_resolveModule hnodup hknown

theorem keys_resolved {before after : List (List ModuleKey)}
    (hsplit : table.graph.components = before ++ after) :
    (table.resolved before).keys = before.flatten := by
  have hperm := Graph.flatten_components_perm table.closed_graph table.nodup_keys
  have hnodup : table.graph.components.flatten.Nodup := hperm.nodup_iff.mpr table.nodup_keys
  refine components_induction (motive := fun before =>
    (table.resolved before).keys = before.flatten) rfl ?_ hsplit
  intro before keys after hsplit hkeys
  have hnew : ((table.resolved before).keys ++ keys).Nodup := by
    rw [hsplit, List.flatten_append, List.flatten_cons, ← List.append_assoc] at hnodup
    rw [hkeys]
    exact (List.nodup_append.mp hnodup).1
  rw [resolved_concat, keys_resolveComponent hnew (subset_keys_of_split hsplit), hkeys]
  simp

/-- After some components, the surfaces of their members are stored as they are in the end. -/
theorem entries_resolved {before after : List (List ModuleKey)}
    (hsplit : table.graph.components = before ++ after) :
    (table.resolved before).entries =
      before.flatten.map fun key => (key, table.resolve.source key) := by
  rw [Surfaces.entries_eq_map_source, keys_resolved hsplit]
  apply List.map_congr_left
  intro key hkey
  obtain ⟨component, hcomponent, hmem⟩ := List.mem_flatten.mp hkey
  rw [source_resolve_of_append hsplit hcomponent hmem]

/-- A component is resolved when all that its members depend on is final, and stores the surface of
every member once. -/
structure ResolvedInOrder (table : ModuleTable) (before : List (List ModuleKey))
    (keys : List ModuleKey) : Prop where
  /-- The members are the modules that lead to each other. -/
  mem_iff : ∀ key ∈ keys, ∀ other, other ∈ keys ↔ table.graph.Mutual key other
  /-- Any other module that a statement of a member names has its final surface. -/
  target_final : ∀ key ∈ keys, ∀ entry, table.get? key = some entry →
    ∀ target ∈ entry.targets, target ∈ table.keys → target ∉ keys →
      ∃ surface, (table.resolved before).get? target = some surface ∧
        table.resolve.get? target = some surface
  /-- The final surfaces of the members come behind those that are stored already. -/
  entries_concat : (table.resolved (before ++ [keys])).entries =
    (table.resolved before).entries ++ keys.map fun key => (key, table.resolve.source key)

theorem resolvedInOrder_of_split {before after : List (List ModuleKey)} {keys : List ModuleKey}
    (hsplit : table.graph.components = before ++ keys :: after) :
    table.ResolvedInOrder before keys where
  mem_iff _ hkey _ :=
    Graph.mem_component_iff table.closed_graph (mem_components_of_split hsplit) hkey
  target_final key hkey entry hentry target htarget hknown houtside := by
    have hneighbour := (mem_neighbours_iff hentry).mpr ⟨htarget, hknown⟩
    obtain ⟨earlier, hearlier, hmem⟩ := (Graph.mem_component_or_earlier table.closed_graph hsplit
      hkey hneighbour).resolve_left houtside
    refine ⟨table.resolve.source target, ?_, get?_resolve table hknown⟩
    rw [Registry.get?_eq_some_iff, entries_resolved hsplit]
    exact List.mem_map_of_mem (List.mem_flatten_of_mem hearlier hmem)
  entries_concat := by
    rw [entries_resolved (components_eq_concat hsplit), entries_resolved hsplit]
    simp

/-- Dependencies come first: every component is resolved from final surfaces, every module belongs to
one component and is stored with it, and a module that lies on no cycle has exactly the surface that
is computed from the surfaces of all modules in the end. -/
theorem resolve_inOrder (table : ModuleTable) :
    (∀ before keys after, table.graph.components = before ++ keys :: after →
      table.ResolvedInOrder before keys) ∧
    table.graph.components.flatten.Perm table.keys ∧
    ∀ key entry, table.get? key = some entry → ¬ table.graph.OnCycle key →
      table.resolve.get? key = some (entry.surface table.resolve.source) := by
  refine ⟨fun _ _ _ hsplit => resolvedInOrder_of_split hsplit,
    Graph.flatten_components_perm table.closed_graph table.nodup_keys, ?_⟩
  intro key entry hentry hcycle
  have hkey : key ∈ table.keys := Registry.mem_keys_iff.mpr ⟨entry, hentry⟩
  obtain ⟨before, keys, after, hsplit, hmem⟩ :=
    Graph.exists_split_of_mem_nodes table.closed_graph hkey
  have hcyclic : table.graph.isCyclic keys = false := by
    rw [Bool.eq_false_iff, Ne,
      Graph.isCyclic_iff_onCycle table.closed_graph (mem_components_of_split hsplit) hmem]
    exact hcycle
  rw [get?_resolve table hkey, surface_resolve_of_acyclic hsplit hcyclic hmem hentry]

end ExportIndex.ModuleTable
