import ExportIndex.Proofs.Graph.Components
import ExportIndex.Proofs.Resolution.Rounds

/-!
# Invariants of a resolution

What holds of an empty surface and is kept by every computation of a module holds of all surfaces at
any time: after any number of rounds of a cycle, after any number of components, and in the end.
-/

namespace ExportIndex

/-- A property of surfaces that empty surfaces have, and that a computed surface has if the surfaces
that it is computed from have it. -/
structure ModuleTable.Keeps (table : ModuleTable) (holds : ModuleKey → Surface → Prop) : Prop where
  empty : ∀ key, holds key Surface.empty
  surface : ∀ key entry source, table.get? key = some entry → (∀ other, holds other (source other)) →
    holds key (entry.surface source)

namespace ModuleTable

theorem key_of_get? {table : ModuleTable} {key : ModuleKey} {entry : ModuleEntry}
    (h : table.get? key = some entry) : entry.key = key :=
  table.keyed _ (Registry.get?_eq_some_iff.mp h)

/-- Entering surfaces replaces those that are there under the same keys. -/
theorem source_foldl_insert (done pending : Surfaces) :
    (pending.entries.foldl (fun surfaces entry => surfaces.insert entry.1 entry.2) done).source =
      sourceIn done pending := by
  funext key
  have hfind : Registry.find? key pending.entries = pending.get? key := rfl
  rw [Surfaces.source, Registry.get?_foldl_insert _ pending.nodup, hfind, sourceIn]
  cases pending.get? key with
  | none => simp [Surfaces.source]
  | some surface => simp

/-- The surfaces of a cycle when its loop ends. -/
def cycleResult (table : ModuleTable) (done : Surfaces) (keys : List ModuleKey) : Surfaces :=
  settle (table.round done keys) (table.bindingLimit keys + 1) 0 (cycleStart keys)

theorem source_resolveCycle (table : ModuleTable) (done : Surfaces) (keys : List ModuleKey) :
    (table.resolveCycle done keys).source = sourceIn done (table.cycleResult done keys) :=
  source_foldl_insert done _

/-- The loop ends in a state that it reaches by rounds, whatever bounds their number. -/
theorem exists_cycleResult_eq (table : ModuleTable) (done : Surfaces) (keys : List ModuleKey) :
    ∃ rounds, table.cycleResult done keys = table.cycleState done keys rounds := by
  have hsettle : ∀ (step : Surfaces → Surfaces) (rounds count : Nat) (pending : Surfaces),
      ∃ n, settle step rounds count pending = step^[n] pending := by
    intro step rounds
    induction rounds with
    | zero => exact fun _ _ => ⟨0, rfl⟩
    | succ rounds ih =>
        intro count pending
        simp only [settle]
        split
        · exact ⟨1, rfl⟩
        · obtain ⟨n, hn⟩ := ih (step pending).bindingCount (step pending)
          exact ⟨n + 1, hn⟩
  exact hsettle _ _ _ _

theorem mem_neighbours_iff {table : ModuleTable} {key target : ModuleKey} {entry : ModuleEntry}
    (hentry : table.get? key = some entry) :
    target ∈ table.graph.neighbours key ↔ target ∈ entry.targets ∧ target ∈ table.keys := by
  simp [graph, neighbours, hentry, keys, Registry.contains_iff]

theorem closed_graph (table : ModuleTable) : table.graph.Closed := by
  intro key _ target htarget
  cases hentry : table.get? key with
  | none => simp [graph, neighbours, hentry] at htarget
  | some entry => exact ((mem_neighbours_iff hentry).mp htarget).2

theorem nodup_of_mem_components {table : ModuleTable} {keys : List ModuleKey}
    (h : keys ∈ table.graph.components) : keys.Nodup :=
  Graph.nodup_component table.closed_graph h

/-- The surfaces after some components. -/
def resolved (table : ModuleTable) (components : List (List ModuleKey)) : Surfaces :=
  components.foldl table.resolveComponent .empty

/-- In the end every module has the surface that its component gave it. -/
theorem source_resolve (table : ModuleTable) {key : ModuleKey} (hkey : key ∈ table.keys) :
    table.resolve.source key = (table.resolved table.graph.components).source key := by
  obtain ⟨entry, hentry⟩ := Registry.mem_keys_iff.mp hkey
  simp only [resolve, Surfaces.source, Registry.get?_mapValues, hentry]
  rfl

theorem nodup_keys (table : ModuleTable) : table.keys.Nodup := table.modules.nodup

theorem keys_resolve (table : ModuleTable) : table.resolve.keys = table.keys := by
  rw [resolve, Registry.keys_mapValues, keys]

theorem get?_resolve (table : ModuleTable) {key : ModuleKey} (hkey : key ∈ table.keys) :
    table.resolve.get? key = some (table.resolve.source key) := by
  rw [← keys_resolve] at hkey
  obtain ⟨surface, hsurface⟩ := Registry.mem_keys_iff.mp hkey
  rw [hsurface, Surfaces.source_of_get? hsurface]

theorem source_resolve_of_notMem (table : ModuleTable) {key : ModuleKey} (hkey : key ∉ table.keys) :
    table.resolve.source key = .empty := by
  have hnone : table.modules.get? key = none := Registry.get?_eq_none_iff.mpr hkey
  simp [resolve, Surfaces.source, Registry.get?_mapValues, hnone]

variable {table : ModuleTable} {holds : ModuleKey → Surface → Prop}

namespace Keeps

variable (h : table.Keeps holds)

include h

theorem revise {source : ModuleKey → Surface} (hsource : ∀ key, holds key (source key))
    (key other : ModuleKey) : holds other (table.revise source key other) := by
  by_cases heq : other = key
  · subst heq
    cases hget : table.get? other with
    | none => simpa [revise_of_get?_none table hget] using hsource other
    | some entry => simpa [revise_of_get? table hget] using h.surface other entry source hget hsource
  · rw [revise_of_ne table source heq]
    exact hsource other

theorem foldl_revise (keys : List ModuleKey) {source : ModuleKey → Surface}
    (hsource : ∀ key, holds key (source key)) (other : ModuleKey) :
    holds other (keys.foldl table.revise source other) := by
  induction keys generalizing source with
  | nil => exact hsource other
  | cons key rest ih => exact ih (h.revise hsource key)

theorem cycleSource {done : Surfaces} (hdone : ∀ key, holds key (done.source key))
    {keys : List ModuleKey} (hnodup : keys.Nodup) (rounds : Nat) (key : ModuleKey) :
    holds key (table.cycleSource done keys rounds key) := by
  induction rounds generalizing key with
  | zero =>
      rw [cycleSource_zero table done hnodup]
      split
      · exact h.empty key
      · exact hdone key
  | succ rounds ih =>
      rw [cycleSource_succ]
      exact h.foldl_revise keys ih key

theorem resolveComponent {done : Surfaces} (hdone : ∀ key, holds key (done.source key))
    {keys : List ModuleKey} (hnodup : keys.Nodup) (key : ModuleKey) :
    holds key ((table.resolveComponent done keys).source key) := by
  unfold ModuleTable.resolveComponent
  split
  · obtain ⟨rounds, hresult⟩ := exists_cycleResult_eq table done keys
    rw [source_resolveCycle, hresult]
    exact h.cycleSource hdone hnodup rounds key
  · rw [source_foldl_resolveModule]
    exact h.foldl_revise keys hdone key

theorem resolved {components : List (List ModuleKey)}
    (hcomponents : components ⊆ table.graph.components) (key : ModuleKey) :
    holds key ((table.resolved components).source key) := by
  have hfold : ∀ done : Surfaces, (∀ key, holds key (done.source key)) →
      ∀ key, holds key ((components.foldl table.resolveComponent done).source key) := by
    induction components with
    | nil => exact fun _ hdone => hdone
    | cons keys rest ih =>
        intro done hdone
        apply ih (fun other hother => hcomponents (List.mem_cons_of_mem _ hother))
        exact h.resolveComponent hdone (nodup_of_mem_components (hcomponents List.mem_cons_self))
  exact hfold .empty h.empty key

theorem resolve (key : ModuleKey) : holds key (table.resolve.source key) := by
  by_cases hkey : key ∈ table.keys
  · rw [source_resolve table hkey]
    exact h.resolved (List.Subset.refl _) key
  · rw [source_resolve_of_notMem table hkey]
    exact h.empty key

end Keeps

/-- At any time, surfaces are well-formed. -/
theorem keeps_wellFormed (table : ModuleTable) : table.Keeps fun _ s => s.WellFormed where
  empty _ := Surface.wellFormed_empty
  surface _ entry source _ _ := entry.wellFormed_surface source

end ModuleTable

end ExportIndex
