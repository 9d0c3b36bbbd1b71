import ExportIndex.Resolution
import ExportIndex.Proofs.Surface.Dependence
import Mathlib.Algebra.GroupWithZero.Nat
import Mathlib.Data.Nat.Find
import Mathlib.Logic.Function.Iterate

/-!
# Rounds of a cycle

The surfaces of all modules are read as one function of the module key, which a computed module
updates at its own key. A round of a cycle is a sequence of such updates, and the loop ends in the
state after some number of rounds.
-/

namespace ExportIndex

namespace Surfaces

theorem source_of_get? {surfaces : Surfaces} {key : ModuleKey} {surface : Surface}
    (h : surfaces.get? key = some surface) : surfaces.source key = surface := by
  simp [source, h]

/-- Surfaces list their modules with what is known of them. -/
theorem entries_eq_map_source (surfaces : Surfaces) :
    surfaces.entries = surfaces.keys.map fun key => (key, surfaces.source key) :=
  surfaces.entries_eq_map_keys .empty

@[simp] theorem source_empty (key : ModuleKey) : source .empty key = .empty := rfl

theorem source_insert (surfaces : Surfaces) (key : ModuleKey) (surface : Surface) :
    source (surfaces.insert key surface) = Function.update surfaces.source key surface := by
  funext other
  by_cases heq : key = other
  · subst heq
    simp [source]
  · rw [Function.update_of_ne (Ne.symm heq)]
    simp [source, heq]

/-- The count of some surfaces, module by module. -/
theorem bindingCount_eq_sum (surfaces : Surfaces) :
    surfaces.bindingCount = (surfaces.keys.map fun key => (surfaces.source key).bindingCount).sum := by
  have hfold : ∀ values : List Surface,
      values.foldr (fun surface count => surface.bindingCount + count) 0 =
        (values.map Surface.bindingCount).sum := by
    intro values
    induction values with
    | nil => rfl
    | cons surface rest ih => simp [ih]
  rw [bindingCount, hfold]
  simp only [Registry.values, Registry.keys, List.map_map]
  congr 1
  apply List.map_congr_left
  rintro ⟨key, surface⟩ hmem
  exact congrArg Surface.bindingCount (source_of_get? (Registry.get?_eq_some_iff.mpr hmem)).symm

end Surfaces

namespace ModuleTable

variable (table : ModuleTable)

/-- The surfaces after one module was computed from them. -/
def revise (source : ModuleKey → Surface) (key : ModuleKey) : ModuleKey → Surface :=
  match table.get? key with
  | some entry => Function.update source key (entry.surface source)
  | none => source

theorem revise_of_get? {key : ModuleKey} {entry : ModuleEntry} (h : table.get? key = some entry)
    (source : ModuleKey → Surface) :
    table.revise source key = Function.update source key (entry.surface source) := by
  simp [revise, h]

theorem revise_of_get?_none {key : ModuleKey} (h : table.get? key = none)
    (source : ModuleKey → Surface) : table.revise source key = source := by
  simp [revise, h]

theorem revise_of_ne (source : ModuleKey → Surface) {key other : ModuleKey} (h : other ≠ key) :
    table.revise source key other = source other := by
  cases hget : table.get? key with
  | none => rw [revise_of_get?_none table hget]
  | some entry => rw [revise_of_get? table hget, Function.update_of_ne h]

theorem foldl_revise_of_notMem (keys : List ModuleKey) (source : ModuleKey → Surface)
    {other : ModuleKey} (h : other ∉ keys) : keys.foldl table.revise source other = source other := by
  induction keys generalizing source with
  | nil => rfl
  | cons key rest ih =>
      simp only [List.mem_cons, not_or] at h
      rw [List.foldl_cons, ih _ h.2, revise_of_ne table source h.1]

/-- Where modules are computed one after another, each is computed from surfaces that are either those
of the start or those of the end. -/
theorem exists_source_of_mem {keys : List ModuleKey} (hnodup : keys.Nodup) {key : ModuleKey}
    (hkey : key ∈ keys) {entry : ModuleEntry} (hentry : table.get? key = some entry)
    (source : ModuleKey → Surface) :
    ∃ seen : ModuleKey → Surface,
      keys.foldl table.revise source key = entry.surface seen ∧
        ∀ other, seen other = source other ∨ seen other = keys.foldl table.revise source other := by
  obtain ⟨before, after, rfl⟩ := List.append_of_mem hkey
  obtain ⟨-, hafter, hdisjoint⟩ := List.nodup_append.mp hnodup
  have hlater := (List.nodup_cons.mp hafter).1
  refine ⟨before.foldl table.revise source, ?_, fun other => ?_⟩
  · rw [List.foldl_append, List.foldl_cons, foldl_revise_of_notMem table after _ hlater,
      revise_of_get? table hentry, Function.update_self]
  · by_cases hother : other ∈ before
    · -- earlier members were computed before this one and not again
      apply Or.inr
      have hrest : other ∉ key :: after := fun hmem => hdisjoint other hother other hmem rfl
      rw [List.foldl_append, foldl_revise_of_notMem table _ _ hrest]
    · exact .inl (foldl_revise_of_notMem table before source hother)

theorem sourceIn_recompute (done pending : Surfaces) (key : ModuleKey) :
    sourceIn done (table.recompute done pending key) =
      table.revise (sourceIn done pending) key := by
  cases hget : table.get? key with
  | none => rw [revise_of_get?_none table hget, recompute, hget]
  | some entry =>
      rw [revise_of_get? table hget]
      funext other
      by_cases heq : key = other
      · subst heq
        simp [sourceIn, recompute, hget]
      · rw [Function.update_of_ne (Ne.symm heq)]
        simp [sourceIn, recompute, hget, heq]

theorem sourceIn_round (done : Surfaces) (keys : List ModuleKey) (pending : Surfaces) :
    sourceIn done (table.round done keys pending) =
      keys.foldl table.revise (sourceIn done pending) := by
  unfold round
  induction keys generalizing pending with
  | nil => rfl
  | cons key rest ih => rw [List.foldl_cons, ih, sourceIn_recompute, List.foldl_cons]

theorem source_resolveModule (done : Surfaces) (key : ModuleKey) :
    (table.resolveModule done key).source = table.revise done.source key := by
  cases hget : table.get? key with
  | none => rw [revise_of_get?_none table hget, resolveModule, hget]
  | some entry => rw [revise_of_get? table hget, resolveModule, hget, Surfaces.source_insert]

theorem source_foldl_resolveModule (done : Surfaces) (keys : List ModuleKey) :
    (keys.foldl table.resolveModule done).source = keys.foldl table.revise done.source := by
  induction keys generalizing done with
  | nil => rfl
  | cons key rest ih => rw [List.foldl_cons, ih, source_resolveModule, List.foldl_cons]

/-- A cycle starts from empty surfaces. -/
def cycleStart (keys : List ModuleKey) : Surfaces := .ofList (keys.map fun key => (key, .empty))

def cycleState (done : Surfaces) (keys : List ModuleKey) (rounds : Nat) : Surfaces :=
  (table.round done keys)^[rounds] (cycleStart keys)

/-- The surfaces of all modules after some rounds of a cycle. -/
def cycleSource (done : Surfaces) (keys : List ModuleKey) (rounds : Nat) : ModuleKey → Surface :=
  sourceIn done (table.cycleState done keys rounds)

theorem cycleState_succ (done : Surfaces) (keys : List ModuleKey) (rounds : Nat) :
    table.cycleState done keys (rounds + 1) =
      table.round done keys (table.cycleState done keys rounds) :=
  Function.iterate_succ_apply' _ _ _

theorem cycleSource_succ (done : Surfaces) (keys : List ModuleKey) (rounds : Nat) :
    table.cycleSource done keys (rounds + 1) =
      keys.foldl table.revise (table.cycleSource done keys rounds) := by
  rw [cycleSource, cycleState_succ, sourceIn_round, cycleSource]

theorem keys_cycleStart (keys : List ModuleKey) (hnodup : keys.Nodup) :
    (cycleStart keys).keys = keys := by
  have hkeys : (keys.map fun key => (key, Surface.empty)).map (·.1) = keys := by
    simp [Function.comp_def]
  rw [cycleStart, Registry.keys_ofList _ (by rwa [hkeys]), hkeys]

theorem cycleSource_zero (done : Surfaces) {keys : List ModuleKey} (hnodup : keys.Nodup)
    (key : ModuleKey) :
    table.cycleSource done keys 0 key = if key ∈ keys then .empty else done.source key := by
  have hkeys := keys_cycleStart keys hnodup
  change sourceIn done (cycleStart keys) key = _
  unfold sourceIn
  by_cases hmem : key ∈ keys
  · obtain ⟨surface, hget⟩ := Registry.mem_keys_iff.mp (hkeys ▸ hmem)
    obtain ⟨_, _, heq⟩ := List.mem_map.mp
      (Registry.mem_of_mem_ofList (Registry.get?_eq_some_iff.mp hget))
    rw [hget, if_pos hmem]
    exact (congrArg Prod.snd heq).symm
  · have hnone : (cycleStart keys).get? key = none :=
      Registry.get?_eq_none_iff.mpr (by rwa [hkeys])
    rw [hnone, if_neg hmem]

/-- Rounds leave the surfaces of all other modules as they are. -/
theorem cycleSource_of_notMem (done : Surfaces) {keys : List ModuleKey} (hnodup : keys.Nodup)
    {key : ModuleKey} (hkey : key ∉ keys) (rounds : Nat) :
    table.cycleSource done keys rounds key = done.source key := by
  induction rounds with
  | zero => rw [cycleSource_zero table done hnodup, if_neg hkey]
  | succ rounds ih => rw [cycleSource_succ, foldl_revise_of_notMem table keys _ hkey, ih]

theorem keys_round (done : Surfaces) {keys : List ModuleKey} {pending : Surfaces}
    (h : ∀ key ∈ keys, key ∈ pending.keys) : (table.round done keys pending).keys = pending.keys := by
  have hrecompute : ∀ key, key ∈ pending.keys → ∀ state : Surfaces, state.keys = pending.keys →
      (table.recompute done state key).keys = pending.keys := by
    intro key hkey state hstate
    unfold recompute
    cases table.get? key with
    | none => exact hstate
    | some entry => simp only [Registry.keys_insert, hstate, if_pos hkey]
  have hfold : ∀ state : Surfaces, state.keys = pending.keys →
      (keys.foldl (table.recompute done) state).keys = pending.keys := by
    induction keys with
    | nil => exact fun _ hstate => hstate
    | cons key rest ih =>
        intro state hstate
        exact ih (fun other hother => h other (List.mem_cons_of_mem _ hother)) _
          (hrecompute key (h key List.mem_cons_self) state hstate)
  exact hfold pending rfl

/-- Rounds neither add nor drop a module. -/
theorem keys_cycleState (done : Surfaces) {keys : List ModuleKey} (hnodup : keys.Nodup)
    (rounds : Nat) : (table.cycleState done keys rounds).keys = keys := by
  induction rounds with
  | zero => exact keys_cycleStart keys hnodup
  | succ rounds ih => rw [cycleState_succ, keys_round table done (fun key hkey => by rwa [ih]), ih]

/-- How many bindings a cycle has after some rounds. -/
def cycleCount (done : Surfaces) (keys : List ModuleKey) (rounds : Nat) : Nat :=
  (table.cycleState done keys rounds).bindingCount

theorem cycleCount_eq_sum (done : Surfaces) {keys : List ModuleKey} (hnodup : keys.Nodup)
    (rounds : Nat) :
    table.cycleCount done keys rounds =
      (keys.map fun key => (table.cycleSource done keys rounds key).bindingCount).sum := by
  have hkeys := keys_cycleState table done hnodup rounds
  rw [cycleCount, Surfaces.bindingCount_eq_sum, hkeys]
  congr 1
  apply List.map_congr_left
  intro key hkey
  obtain ⟨surface, hget⟩ := Registry.mem_keys_iff.mp (hkeys.symm ▸ hkey)
  rw [Surfaces.source_of_get? hget, cycleSource, sourceIn, hget]

/-- A bounded count rises some times and then does not. -/
theorem exists_last_raise {count : Nat → Nat} {limit : Nat} (hlimit : ∀ n, count n ≤ limit) :
    ∃ last, last + count 0 ≤ limit ∧ (∀ n < last, count n < count (n + 1)) ∧
      count (last + 1) ≤ count last := by
  have hgrowth : ∀ last, (∀ n < last, count n < count (n + 1)) → last + count 0 ≤ count last := by
    intro last hraises
    induction last with
    | zero => simp
    | succ last ih =>
        have hbefore := ih fun n hn => hraises n (by omega)
        have hstep := hraises last (by omega)
        omega
  have hstops : ∃ n, count (n + 1) ≤ count n := by
    apply Classical.byContradiction
    intro hnever
    have hraises : ∀ n, count n < count (n + 1) := fun n =>
      Nat.lt_of_not_le fun hle => hnever ⟨n, hle⟩
    have hpast := hgrowth (limit + 1) fun n _ => hraises n
    have hbound := hlimit (limit + 1)
    omega
  have hraises : ∀ n < Nat.find hstops, count n < count (n + 1) := fun n hn =>
    Nat.lt_of_not_le (Nat.find_min hstops hn)
  exact ⟨Nat.find hstops, Nat.le_trans (hgrowth _ hraises) (hlimit _), hraises,
    Nat.find_spec hstops⟩

/-- The loop ends with the first round that does not raise the count, unless it runs out of rounds
before. -/
theorem settle_eq_iterate (step : Surfaces → Surfaces) {last rounds : Nat} (pending : Surfaces)
    (hraises : ∀ n < last,
      (step^[n] pending).bindingCount < (step^[n + 1] pending).bindingCount)
    (hlast : (step^[last + 1] pending).bindingCount ≤ (step^[last] pending).bindingCount)
    (hrounds : last < rounds) :
    settle step rounds pending.bindingCount pending = step^[last + 1] pending := by
  obtain ⟨rounds, rfl⟩ : ∃ fewer, rounds = fewer + 1 := ⟨rounds - 1, by omega⟩
  induction last generalizing pending rounds with
  | zero =>
      have hcount : (step pending).bindingCount ≤ pending.bindingCount := hlast
      simp [settle, hcount]
  | succ last ih =>
      -- the first round raises the count, and the rest of the loop starts after it
      have hcount : ¬ (step pending).bindingCount ≤ pending.bindingCount :=
        Nat.not_le_of_lt (hraises 0 (by omega))
      obtain ⟨fewer, rfl⟩ : ∃ fewer, rounds = fewer + 1 := ⟨rounds - 1, by omega⟩
      have hrest := ih (step pending) (fun n hn => hraises (n + 1) (by omega)) hlast fewer (by omega)
      simpa [settle, hcount] using hrest

end ModuleTable

end ExportIndex
