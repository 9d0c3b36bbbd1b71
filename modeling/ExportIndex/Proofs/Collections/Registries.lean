import ExportIndex.Proofs.Collections.NameSets
import ExportIndex.Registry
import Mathlib.Data.List.Basic

/-!
# Registries from lists

When items are entered into a registry one after another, each changes the value under its own key.
The keys stand in the order in which items first name them, and what a key has is made by the items of
this key alone.
-/

namespace ExportIndex.Registry

variable {κ : Type u} {α : Type v} {ι : Type w}

theorem entries_eq_filterMap_keys [DecidableEq κ] (r : Registry κ α) :
    r.entries = r.keys.filterMap fun key => (r.get? key).map fun value => (key, value) := by
  rw [keys, List.filterMap_map]
  refine (List.filterMap_some.symm).trans (List.filterMap_congr ?_)
  rintro ⟨key, value⟩ hmem
  simp [get?_eq_some_iff.mpr hmem]

theorem ext_entries {first second : Registry κ α} (h : first.entries = second.entries) :
    first = second := by
  cases first
  cases second
  simpa using h

/-- A registry is known by its keys and by what it has under them. -/
theorem ext_keys [DecidableEq κ] {first second : Registry κ α} (hkeys : first.keys = second.keys)
    (hget : ∀ key, first.get? key = second.get? key) : first = second := by
  apply ext_entries
  rw [entries_eq_filterMap_keys first, entries_eq_filterMap_keys second, hkeys]
  simp only [hget]

theorem ofList_entries [DecidableEq κ] (r : Registry κ α) : ofList r.entries = r :=
  ext_entries (entries_ofList _ r.nodup)

section Filter

variable (keep : κ → Bool) (r : Registry κ α)

theorem keys_filter : (r.filter fun key _ => keep key).keys = r.keys.filter keep := by
  rw [keys, filter, keys, List.filter_map]
  rfl

theorem get?_filter [DecidableEq κ] (key : κ) :
    (r.filter fun key _ => keep key).get? key = if keep key then r.get? key else none := by
  have hfind : ∀ entries : List (κ × α), find? key (entries.filter fun entry => keep entry.1) =
      if keep key then find? key entries else none := by
    intro entries
    induction entries with
    | nil => simp [find?]
    | cons entry rest ih => grind [find?]
  exact hfind r.entries

end Filter

/-- What stands earlier is found. -/
theorem find?_append [DecidableEq κ] (key : κ) (first second : List (κ × α)) :
    find? key (first ++ second) = (find? key first).or (find? key second) := by
  induction first with
  | nil => rfl
  | cons entry rest ih => by_cases heq : entry.1 = key <;> simp [find?, heq, ih]

section Positions

variable (give : α → Option ι) (items : List α)

theorem nodup_positions : ((items.zipIdx.filterMap fun (item, index) =>
    (give item).map fun found => (index, found)).map (·.1)).Nodup := by
  have hpositions : (items.zipIdx.map Prod.snd).Pairwise (· ≠ ·) := by
    rw [List.zipIdx_map_snd]
    exact List.nodup_range'
  rw [List.Nodup, List.pairwise_map, List.pairwise_filterMap]
  refine (List.pairwise_map.mp hpositions).imp fun hne first hfirst second hsecond => ?_
  obtain ⟨_, _, rfl⟩ := Option.map_eq_some_iff.mp hfirst
  obtain ⟨_, _, rfl⟩ := Option.map_eq_some_iff.mp hsecond
  exact hne

/-- Under a position stands what the function gives for the item there. -/
theorem get?_ofPositions (index : Nat) :
    (ofPositions give items).get? index = items[index]?.bind give := by
  apply Option.ext
  intro found
  rw [get?_eq_some_iff, ofPositions, entries_ofList _ (nodup_positions give items),
    List.mem_filterMap, Option.bind_eq_some_iff]
  constructor
  · rintro ⟨⟨item, position⟩, hitem, hfound⟩
    obtain ⟨_, hgive, heq⟩ := Option.map_eq_some_iff.mp hfound
    obtain ⟨rfl, rfl⟩ := Prod.mk.inj heq
    exact ⟨item, List.mem_zipIdx_iff_getElem?.mp hitem, hgive⟩
  · rintro ⟨item, hitem, hgive⟩
    exact ⟨(item, index), List.mem_zipIdx_iff_getElem?.mpr hitem, by simp [hgive]⟩

end Positions

variable [DecidableEq κ] (key : ι → κ) (change : ι → Option α → α)

/-- The keys stand in the order in which items first name them. -/
theorem keys_foldl_upsert (items : List ι) :
    (items.foldl (fun r item => r.upsert (key item) (change item)) empty).keys =
      (items.map key).eraseDups := by
  induction items using List.reverseRecOn with
  | nil => rfl
  | append_singleton items item ih =>
      rw [List.foldl_append, List.foldl_cons, List.foldl_nil, keys_upsert, ih, List.map_append,
        List.map_singleton, eraseDups_concat]
      simp only [List.mem_eraseDups]

/-- What a key has is made by the items of this key, in their order. -/
theorem get?_foldl_upsert (items : List ι) (r : Registry κ α) (k : κ) :
    (items.foldl (fun r item => r.upsert (key item) (change item)) r).get? k =
      (items.filter (key · = k)).foldl (fun value item => some (change item value)) (r.get? k) := by
  induction items generalizing r with
  | nil => rfl
  | cons item rest ih =>
      rw [List.foldl_cons, ih, get?_upsert]
      by_cases heq : key item = k
      · subst heq
        simp
      · simp [heq]

theorem keys_ofList_eq (pairs : List (κ × α)) :
    (ofList pairs).keys = (pairs.map (·.1)).eraseDups :=
  keys_foldl_upsert (fun pair : κ × α => pair.1) (fun pair _ => pair.2) pairs

/-- The last of several values under one key stands. -/
theorem get?_ofList (pairs : List (κ × α)) (k : κ) :
    (ofList pairs).get? k = ((pairs.filter (·.1 = k)).map (·.2)).getLast? := by
  have hlast : ∀ (values : List α) (before : Option α),
      values.foldl (fun _ value => some value) before = values.getLast?.or before := by
    intro values
    induction values with
    | nil => simp
    | cons value rest ih =>
        intro before
        rw [List.foldl_cons, ih, List.getLast?_cons]
        cases rest.getLast? <;> rfl
  have hfold := get?_foldl_upsert (fun pair : κ × α => pair.1) (fun pair _ => pair.2) pairs empty k
  rw [get?_empty] at hfold
  rw [← Option.or_none (o := ((pairs.filter (·.1 = k)).map (·.2)).getLast?), ← hlast, List.foldl_map]
  exact hfold

end ExportIndex.Registry
