import ExportIndex.Proofs.Surface.Items
import ExportIndex.Proofs.Resolution.Order
import Mathlib.Algebra.BigOperators.Group.List.Basic
import Mathlib.Algebra.Order.BigOperators.Group.List
import Mathlib.Algebra.Order.Group.Nat

/-!
# How long a cycle is computed

Rounds of a cycle may replace and drop bindings, but the loop goes on only while the count rises, and
the count never exceeds what the items and names of the table allow. So the loop always ends because
a round did not raise the count, whatever number of rounds it may run beyond that limit.
-/

namespace ExportIndex

namespace ModuleTable

/-- At any time, surfaces list items of the table under names of the table. -/
theorem keeps_over (table : ModuleTable) :
    table.Keeps fun _ s => s.Over table.allBindings table.allNames.toList where
  empty _ := Surface.over_empty
  surface key entry source hentry hsource := by
    have hwell := fun other => (hsource other).wellFormed
    have hmem := mem_entries_of_get? hentry
    have hfilled := filled_of_get? hentry
    refine ⟨entry.wellFormed_surface source, ?_, ?_⟩
    · intro name binding hbinding
      obtain ⟨-, hgives⟩ := ModuleEntry.gives_of_mem_bindings_surface hfilled hwell hbinding
      cases hgives with
      | exports hexports => exact mem_allBindings_of_exports hentry hexports
      | passes _ hgiven => exact (hsource _).binding_mem _ _ hgiven
    · intro name binding hbinding
      obtain ⟨-, hgives⟩ := ModuleEntry.gives_of_mem_bindings_surface hfilled hwell hbinding
      cases hgives with
      | exports hexports => exact mem_allNames_of_exports hmem hexports
      | passes hpasses hgiven =>
          -- a star keeps the name, which the invariant covers; every other rule names it itself
          rcases mem_allNames_of_passes hmem hpasses with rfl | hname
          · exact (hsource _).name_mem _ _ hgiven
          · exact .inr hname

/-- The loop of a cycle ends because a round does not raise the count, after some rounds that do. -/
structure EndsAfter (table : ModuleTable) (done : Surfaces) (keys : List ModuleKey) (last : Nat) :
    Prop where
  raises : ∀ n < last, table.cycleCount done keys n < table.cycleCount done keys (n + 1)
  stops : table.cycleCount done keys (last + 1) ≤ table.cycleCount done keys last
  /-- A loop that may run more rounds ends no later. -/
  settle_eq : ∀ rounds, last < rounds →
    settle (table.round done keys) rounds 0 (cycleStart keys) = table.cycleState done keys (last + 1)
  source_eq : (table.resolveCycle done keys).source = table.cycleSource done keys (last + 1)

variable {table : ModuleTable} {before after : List (List ModuleKey)} {keys : List ModuleKey}

section Cycle

variable (hsplit : table.graph.components = before ++ keys :: after)

include hsplit

/-- What every computation keeps holds in a cycle that starts after the components before it. -/
theorem Keeps.cycleSource_resolved {holds : ModuleKey → Surface → Prop} (h : table.Keeps holds)
    (rounds : Nat) (key : ModuleKey) :
    holds key (table.cycleSource (table.resolved before) keys rounds key) :=
  h.cycleSource (h.resolved (before_subset_of_split hsplit)) (nodup_of_split hsplit) rounds key

/-- No count exceeds the limit. -/
theorem cycleCount_le (rounds : Nat) :
    table.cycleCount (table.resolved before) keys rounds ≤ table.bindingLimit keys := by
  rw [cycleCount_eq_sum table _ (nodup_of_split hsplit), bindingLimit]
  refine (List.sum_le_card_nsmul _ (1 + table.allBindings.length * table.allNames.toList.length)
    ?_).trans (by simp)
  intro count hcount
  obtain ⟨key, -, rfl⟩ := List.mem_map.mp hcount
  exact (table.keeps_over.cycleSource_resolved hsplit rounds key).bindingCount_le

theorem cycleCount_zero : table.cycleCount (table.resolved before) keys 0 = 0 := by
  rw [cycleCount_eq_sum table _ (nodup_of_split hsplit)]
  apply List.sum_eq_zero
  intro count hcount
  obtain ⟨key, hkey, rfl⟩ := List.mem_map.mp hcount
  rw [cycleSource_zero table _ (nodup_of_split hsplit), if_pos hkey]
  rfl

theorem exists_endsAfter :
    ∃ last ≤ table.bindingLimit keys, table.EndsAfter (table.resolved before) keys last := by
  obtain ⟨last, hlimit, hraises, hstops⟩ := exists_last_raise (cycleCount_le hsplit)
  have hsettle : ∀ rounds, last < rounds →
      settle (table.round (table.resolved before) keys) rounds 0 (cycleStart keys) =
        table.cycleState (table.resolved before) keys (last + 1) := by
    intro rounds hrounds
    have hloop := settle_eq_iterate _ (cycleStart keys) hraises hstops hrounds
    rwa [show (cycleStart keys).bindingCount = 0 from cycleCount_zero hsplit] at hloop
  refine ⟨last, by omega, hraises, hstops, hsettle, ?_⟩
  rw [source_resolveCycle, cycleResult, hsettle _ (by omega)]
  rfl

/-- A loop that may run more rounds than the limit ends in the same state. -/
theorem settle_eq_cycleResult {rounds : Nat} (hrounds : table.bindingLimit keys < rounds) :
    settle (table.round (table.resolved before) keys) rounds 0 (cycleStart keys) =
      table.cycleResult (table.resolved before) keys := by
  obtain ⟨last, hlimit, hends⟩ := exists_endsAfter hsplit
  rw [cycleResult, hends.settle_eq rounds (by omega), hends.settle_eq _ (by omega)]

/-- The rounds of a cycle come to an end. As long as the loop goes on, the count is above all earlier
counts; it never exceeds what the members, the items and the names of the table allow; and so the
loop runs at most one round more than that limit. -/
theorem resolveCycle_ends :
    ∃ last ≤ keys.length * (1 + table.allBindings.length * table.allNames.toList.length),
      table.EndsAfter (table.resolved before) keys last ∧
      (∀ n ≤ last, ∀ earlier < n, table.cycleCount (table.resolved before) keys earlier <
        table.cycleCount (table.resolved before) keys n) ∧
      ∀ n, table.cycleCount (table.resolved before) keys n ≤
        keys.length * (1 + table.allBindings.length * table.allNames.toList.length) := by
  obtain ⟨last, hlimit, hends⟩ := exists_endsAfter hsplit
  refine ⟨last, hlimit, hends, ?_, cycleCount_le hsplit⟩
  intro n hn earlier hearlier
  -- a count is above the one before it, and that one above all earlier counts
  induction n with
  | zero => omega
  | succ n ih =>
      have hstep := hends.raises n (by omega)
      rcases Nat.lt_succ_iff_lt_or_eq.mp hearlier with hlt | rfl
      · exact (ih (by omega) hlt).trans hstep
      · exact hstep

end Cycle

/-- The surface of a module is computed from surfaces of other modules, whether in a cycle or not. -/
theorem exists_surface_eq_resolve {table : ModuleTable} {key : ModuleKey} {entry : ModuleEntry}
    (hentry : table.get? key = some entry) :
    ∃ seen, table.resolve.source key = entry.surface seen := by
  have hkey : key ∈ table.keys := Registry.mem_keys_iff.mpr ⟨entry, hentry⟩
  obtain ⟨before, keys, after, hsplit, hmem⟩ :=
    Graph.exists_split_of_mem_nodes table.closed_graph hkey
  cases hcyclic : table.graph.isCyclic keys with
  | false => exact ⟨_, (surface_resolve_of_acyclic hsplit hcyclic hmem hentry).symm⟩
  | true =>
      obtain ⟨last, -, hends⟩ := exists_endsAfter hsplit
      obtain ⟨seen, hseen, -⟩ := exists_source_of_mem table (nodup_of_split hsplit) hmem hentry
        (table.cycleSource (table.resolved before) keys last)
      refine ⟨seen, ?_⟩
      rw [source_resolve_of_split hsplit (.inl hmem), resolved_concat, resolveComponent,
        if_pos hcyclic, hends.source_eq, cycleSource_succ, hseen]

/-- A file at the top of a workspace. -/
def workspaceFile (name : String) (declarations : List Declaration) (imports : List Import)
    (exports : List Export) : Resource :=
  { kind := .file
    filePath? := some (Path.mk ("/w/" ++ name ++ ".ts"))
    rootPath? := some (Path.mk "/w")
    declarations
    imports
    exports }

/-- `export const name`. -/
def exportedConstant (name : String) : Declaration :=
  .ofVariable
    { name, exported := true, isConst := true, scope := .topLevel, type? := none, span := default }

/-- Two files that export what they export from each other, under one more name. -/
def mutualBarrels : ModuleTable :=
  .build false
    [workspaceFile "a" [exportedConstant "x"] [] [.all "./b" none default],
      workspaceFile "b" [] []
        [.named (some "./a") [⟨"x", some "y"⟩] false default, .all "./a" none default]]

theorem components_mutualBarrels : mutualBarrels.graph.components = [["/b", "/a"]] := by
  decide +kernel

theorem mutualBarrels_ends :
    mutualBarrels.graph.components = [] ++ ["/b", "/a"] :: [] ∧
      ∃ last ≤ mutualBarrels.bindingLimit ["/b", "/a"],
        mutualBarrels.EndsAfter (mutualBarrels.resolved []) ["/b", "/a"] last := by
  have hsplit : mutualBarrels.graph.components = [] ++ ["/b", "/a"] :: [] :=
    components_mutualBarrels
  obtain ⟨last, hlast, hends, -, -⟩ := resolveCycle_ends hsplit
  exact ⟨hsplit, last, hlast, hends⟩

end ModuleTable

end ExportIndex
