import ExportIndex.Proofs.Resolution.FixedPoint

/-!
# Every exported name is found

Where no export clause gives the default slot, the surfaces of a table list exactly what the export
rules derive, however the modules depend on each other.
-/

namespace ExportIndex.ModuleTable

/-- A module of a table has a binding under a name by a finite chain of export rules. A default
binding is the first of the items that the module itself exports as its default. -/
inductive Derivable (table : ModuleTable) : ModuleKey → String → Binding → Prop
  | own {key : ModuleKey} {entry : ModuleEntry} {name : String} {slot : Slot}
      (hentry : table.get? key = some entry) (hassigned : entry.AssignsNothing)
      (hname : name ≠ defaultName) (h : entry.Exports name slot) :
      Derivable table key name (entry.binding slot)
  | passed {key target : ModuleKey} {entry : ModuleEntry} {name original : String}
      {binding : Binding} (hentry : table.get? key = some entry)
      (hassigned : entry.AssignsNothing) (hname : name ≠ defaultName)
      (h : entry.Passes name target original) (hbinding : Derivable table target original binding) :
      Derivable table key name binding
  | ofDefault {key : ModuleKey} {entry : ModuleEntry} {slot : Slot}
      (hentry : table.get? key = some entry) (hassigned : entry.AssignsNothing)
      (h : entry.FirstDefault slot) :
      Derivable table key defaultName (entry.binding slot)

variable {table : ModuleTable}

section Clauses

variable (hclauses : ∀ entry ∈ table.entries, entry.ClausesWithin (· ≠ defaultName))

include hclauses

/-- Where no export clause gives the default slot, computing any module of the table once more
changes nothing. -/
theorem settled_resolve : table.Settled table.resolve.source table.keys := by
  intro key hkey entry hentry
  obtain ⟨before, keys, after, hsplit, hmem⟩ :=
    Graph.exists_split_of_mem_nodes table.closed_graph hkey
  cases hcyclic : table.graph.isCyclic keys with
  | false =>
      rw [surface_resolve_of_acyclic hsplit hcyclic hmem hentry]
      exact Surface.Agrees.refl _
  | true =>
      have hcycle : table.Settled (table.resolveComponent (table.resolved before) keys).source
          keys := by
        rw [resolveComponent, if_pos hcyclic]
        exact settled_resolveCycle hsplit fun _ _ entry hentry =>
          hclauses entry (mem_entries_of_get? hentry)
      -- the targets were final already when the component was done
      have hsurface : entry.surface table.resolve.source =
          entry.surface (table.resolved (before ++ [keys])).source :=
        ModuleEntry.surface_congr fun target htarget =>
          source_resolve_target hsplit hmem hentry htarget
      rw [hsurface, source_resolve_of_split hsplit (.inl hmem), resolved_concat]
      exact hcycle key hmem entry hentry

/-- What the rules derive from the surfaces of other modules, a surface lists. -/
theorem Derivable.mem_bindings {key : ModuleKey} {name : String} {binding : Binding}
    (h : table.Derivable key name binding) : binding ∈ (table.resolve.source key).bindings name := by
  have hwell := table.keeps_wellFormed.resolve
  have hagrees : ∀ {key entry}, table.get? key = some entry →
      (entry.surface table.resolve.source).Agrees (table.resolve.source key) := fun hentry =>
    settled_resolve hclauses _ (Registry.mem_keys_iff.mpr ⟨_, hentry⟩) _ hentry
  -- each rule is applied to final surfaces, which computing the module once more does not change
  induction h with
  | own hentry hassigned hname hexports =>
      rw [← (hagrees hentry).bindings,
        ModuleEntry.mem_bindings_surface_iff (filled_of_get? hentry) hwell hname]
      exact ⟨ModuleEntry.assignsNothing_iff.mp hassigned, .exports hexports⟩
  | passed hentry hassigned hname hpasses _ ih =>
      rw [← (hagrees hentry).bindings,
        ModuleEntry.mem_bindings_surface_iff (filled_of_get? hentry) hwell hname]
      exact ⟨ModuleEntry.assignsNothing_iff.mp hassigned, .passes hpasses ih⟩
  | ofDefault hentry hassigned hdefault =>
      have hclause := hclauses _ (mem_entries_of_get? hentry)
      rw [← (hagrees hentry).bindings, Surface.mem_bindings_default,
        ModuleEntry.default?_surface hwell hclause,
        ModuleEntry.ownDefault?_eq_some_iff (filled_of_get? hentry) hclause]
      exact ⟨hassigned, _, hdefault, rfl⟩

/-- At any time, surfaces list only what the rules derive. -/
theorem keeps_derivable : table.Keeps fun key s =>
    s.WellFormed ∧ ∀ name binding, binding ∈ s.bindings name → table.Derivable key name binding where
  empty key := ⟨Surface.wellFormed_empty, fun name binding h => by simp at h⟩
  surface key entry source hentry hsource := by
    have hwell := fun other => (hsource other).1
    have hfilled := filled_of_get? hentry
    have hclause := hclauses entry (mem_entries_of_get? hentry)
    refine ⟨entry.wellFormed_surface source, fun name binding hbinding => ?_⟩
    by_cases hname : name = defaultName
    · subst hname
      rw [Surface.mem_bindings_default, ModuleEntry.default?_surface hwell hclause,
        ModuleEntry.ownDefault?_eq_some_iff hfilled hclause] at hbinding
      obtain ⟨hassigned, slot, hdefault, rfl⟩ := hbinding
      exact .ofDefault hentry hassigned hdefault
    · obtain ⟨hassigned, hgives⟩ :=
        (ModuleEntry.mem_bindings_surface_iff hfilled hwell hname).mp hbinding
      have hassigned := ModuleEntry.assignsNothing_iff.mpr hassigned
      cases hgives with
      | exports hexports => exact .own hentry hassigned hname hexports
      | passes hpasses hgiven =>
          exact .passed hentry hassigned hname hpasses ((hsource _).2 _ _ hgiven)

end Clauses

/-- Where no export clause gives the default slot, a module lists under a name exactly the bindings
that a finite chain of export rules derives for it, through cycles and across them. -/
theorem mem_resolve_iff_derivable
    (hclauses : ∀ entry ∈ table.entries, entry.ClausesWithin (· ≠ defaultName)) (key : ModuleKey)
    (name : String) (binding : Binding) :
    binding ∈ (table.resolve.source key).bindings name ↔ table.Derivable key name binding :=
  ⟨fun h => ((keeps_derivable hclauses).resolve key).2 name binding h,
    fun h => h.mem_bindings hclauses⟩

/-- The name `y` comes to `a` from `b`, which gives it to what `a` exports as `x`. -/
theorem mutualBarrels_derivable :
    (∀ entry ∈ mutualBarrels.entries, entry.ClausesWithin (· ≠ defaultName)) ∧
      ⟨"/a", .declared 0⟩ ∈ (mutualBarrels.resolve.source "/a").bindings "y" ∧
      mutualBarrels.Derivable "/a" "y" ⟨"/a", .declared 0⟩ := by
  have hclauses : ∀ entry ∈ mutualBarrels.entries, entry.ClausesWithin (· ≠ defaultName) := by
    unfold ModuleEntry.ClausesWithin
    decide +kernel
  have hlisted : ⟨"/a", .declared 0⟩ ∈ (mutualBarrels.resolve.source "/a").bindings "y" := by
    decide +kernel
  exact ⟨hclauses, hlisted, (mem_resolve_iff_derivable hclauses _ _ _).mp hlisted⟩

end ExportIndex.ModuleTable
