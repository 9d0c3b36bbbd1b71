/-!
# Registries

A registry keeps one value under each key, in the order in which the keys first
came. Changing the value of a known key leaves the key where it stands; a new
key goes to the end.
-/

namespace ExportIndex

/-- Values under distinct keys, in the order in which the keys first came. -/
structure Registry (κ : Type u) (α : Type v) where
  entries : List (κ × α)
  nodup : (entries.map (·.1)).Nodup

namespace Registry

variable {κ : Type u} {α : Type v} {β : Type w}

def empty : Registry κ α := ⟨[], by simp⟩

instance : Inhabited (Registry κ α) := ⟨empty⟩

def keys (r : Registry κ α) : List κ := r.entries.map (·.1)

/-- The values, in the order of their keys. -/
def values (r : Registry κ α) : List α := r.entries.map (·.2)

def size (r : Registry κ α) : Nat := r.entries.length

/-- Change every value, keeping keys and order. -/
def mapValues (f : κ → α → β) (r : Registry κ α) : Registry κ β :=
  ⟨r.entries.map fun entry => (entry.1, f entry.1 entry.2), by
    simpa [List.map_map, Function.comp_def] using r.nodup⟩

/-- The entries that a test on keys and values keeps, in order. -/
def filter (keep : κ → α → Bool) (r : Registry κ α) : Registry κ α :=
  ⟨r.entries.filter fun entry => keep entry.1 entry.2,
    (List.filter_sublist.map _).nodup r.nodup⟩

variable [DecidableEq κ]

/-- The value of the first entry with a key. -/
def find? (key : κ) : List (κ × α) → Option α
  | [] => none
  | entry :: rest => if entry.1 = key then some entry.2 else find? key rest

def get? (r : Registry κ α) (key : κ) : Option α := find? key r.entries

def contains (r : Registry κ α) (key : κ) : Bool := (r.get? key).isSome

/-- The entries after the value under `key` became `change` of what it was. -/
def upsertEntries (key : κ) (change : Option α → α) : List (κ × α) → List (κ × α)
  | [] => [(key, change none)]
  | entry :: rest =>
    if entry.1 = key then (entry.1, change (some entry.2)) :: rest
    else entry :: upsertEntries key change rest

theorem keys_upsertEntries (key : κ) (change : Option α → α) (entries : List (κ × α)) :
    (upsertEntries key change entries).map (·.1) =
      if key ∈ entries.map (·.1) then entries.map (·.1) else entries.map (·.1) ++ [key] := by
  induction entries with
  | nil => simp [upsertEntries]
  | cons entry rest ih =>
    by_cases h : entry.1 = key
    · simp [upsertEntries, h]
    · have hne : key ≠ entry.1 := fun e => h e.symm
      by_cases hmem : key ∈ rest.map (·.1)
      · simp [upsertEntries, h, ih, hmem]
      · simp [upsertEntries, h, ih, hmem, hne]

/-- Set the value under `key` to `change` of what it was; a new key goes to the end. -/
def upsert (r : Registry κ α) (key : κ) (change : Option α → α) : Registry κ α :=
  ⟨upsertEntries key change r.entries, by
    rw [keys_upsertEntries]
    split
    · exact r.nodup
    · next hnew =>
      refine List.nodup_append.mpr ⟨r.nodup, by simp, ?_⟩
      intro a ha b hb hab
      simp only [List.mem_singleton] at hb
      exact hnew (hb ▸ hab ▸ ha)⟩

/-- Put a value under a key, replacing the value that was there. -/
def insert (r : Registry κ α) (key : κ) (value : α) : Registry κ α :=
  r.upsert key fun _ => value

def erase (r : Registry κ α) (key : κ) : Registry κ α :=
  r.filter fun other _ => other ≠ key

/-- Enter pairs one after another; a later pair replaces the value of an earlier one. -/
def ofList (pairs : List (κ × α)) : Registry κ α :=
  pairs.foldl (fun r pair => r.insert pair.1 pair.2) empty

/-- What a function gives for the items of a list, under their positions. -/
def ofPositions (give : α → Option β) (items : List α) : Registry Nat β :=
  .ofList (items.zipIdx.filterMap fun (item, index) => (give item).map fun found => (index, found))

theorem mem_upsertEntries {key : κ} {change : Option α → α} {entries : List (κ × α)}
    {pair : κ × α} (h : pair ∈ upsertEntries key change entries) :
    pair ∈ entries ∨ ∃ before, pair = (key, change before) := by
  induction entries with
  | nil => exact .inr ⟨none, by simpa [upsertEntries] using h⟩
  | cons entry rest ih => grind [upsertEntries]

/-- What is entered one after another is all that there is. -/
theorem mem_of_mem_ofList {pairs : List (κ × α)} {pair : κ × α}
    (h : pair ∈ (ofList pairs).entries) : pair ∈ pairs := by
  suffices ∀ r : Registry κ α,
      pair ∈ (pairs.foldl (fun r pair => r.insert pair.1 pair.2) r).entries →
        pair ∈ r.entries ∨ pair ∈ pairs by
    simpa [empty] using this empty h
  clear h
  induction pairs with
  | nil => exact fun _ h => .inl h
  | cons head rest ih =>
    intro r h
    rcases ih _ h with h | h
    · rcases mem_upsertEntries h with h | ⟨_, rfl⟩
      · exact .inl h
      · exact .inr List.mem_cons_self
    · exact .inr (List.mem_cons_of_mem _ h)

@[simp] theorem get?_empty (key : κ) : (empty : Registry κ α).get? key = none := rfl

omit [DecidableEq κ] in
@[simp] theorem keys_empty : (empty : Registry κ α).keys = [] := rfl

theorem find?_upsertEntries (key other : κ) (change : Option α → α) (entries : List (κ × α)) :
    find? other (upsertEntries key change entries) =
      if key = other then some (change (find? key entries)) else find? other entries := by
  induction entries with
  | nil => by_cases h : key = other <;> simp [upsertEntries, find?, h]
  | cons entry rest ih => grind [upsertEntries, find?]

/-- An update is seen under its own key and nowhere else. -/
theorem get?_upsert (r : Registry κ α) (key other : κ) (change : Option α → α) :
    (r.upsert key change).get? other =
      if key = other then some (change (r.get? key)) else r.get? other :=
  find?_upsertEntries key other change r.entries

/-- A new key goes to the end and a known key stays where it is. -/
theorem keys_upsert (r : Registry κ α) (key : κ) (change : Option α → α) :
    (r.upsert key change).keys = if key ∈ r.keys then r.keys else r.keys ++ [key] :=
  keys_upsertEntries key change r.entries

@[simp] theorem get?_insert (r : Registry κ α) (key other : κ) (value : α) :
    (r.insert key value).get? other = if key = other then some value else r.get? other :=
  get?_upsert r key other _

theorem keys_insert (r : Registry κ α) (key : κ) (value : α) :
    (r.insert key value).keys = if key ∈ r.keys then r.keys else r.keys ++ [key] :=
  keys_upsert r key _

theorem find?_filter_ne (key other : κ) (entries : List (κ × α)) :
    find? other (entries.filter fun entry => entry.1 ≠ key) =
      if key = other then none else find? other entries := by
  induction entries with
  | nil => simp [find?]
  | cons entry rest ih => grind [find?]

/-- Erasing a key takes its value away and no other. -/
@[simp] theorem get?_erase (r : Registry κ α) (key other : κ) :
    (r.erase key).get? other = if key = other then none else r.get? other :=
  find?_filter_ne key other r.entries

theorem find?_eq_some_of_mem {key : κ} {value : α} {entries : List (κ × α)}
    (hnodup : (entries.map (·.1)).Nodup) (hmem : (key, value) ∈ entries) :
    find? key entries = some value := by
  induction entries with
  | nil => simp at hmem
  | cons entry rest ih =>
      obtain ⟨hnew, hrest⟩ := List.nodup_cons.mp hnodup
      rcases List.mem_cons.mp hmem with rfl | hmem
      · simp [find?]
      · have hne : entry.1 ≠ key := by
          rintro rfl
          exact hnew (List.mem_map.mpr ⟨_, hmem, rfl⟩)
        simp [find?, hne, ih hrest hmem]

theorem mem_of_find?_eq_some {key : κ} {value : α} {entries : List (κ × α)}
    (h : find? key entries = some value) : (key, value) ∈ entries := by
  induction entries with
  | nil => simp [find?] at h
  | cons entry rest ih =>
      by_cases heq : entry.1 = key
      · have hvalue : entry.2 = value := by simpa [find?, heq] using h
        exact List.mem_cons.mpr (.inl (by rw [← heq, ← hvalue]))
      · exact List.mem_cons_of_mem _ (ih (by simpa [find?, heq] using h))

/-- Looking up a key finds exactly the value that is entered under it. -/
theorem get?_eq_some_iff {r : Registry κ α} {key : κ} {value : α} :
    r.get? key = some value ↔ (key, value) ∈ r.entries :=
  ⟨mem_of_find?_eq_some, find?_eq_some_of_mem r.nodup⟩

theorem mem_keys_iff {r : Registry κ α} {key : κ} :
    key ∈ r.keys ↔ ∃ value, r.get? key = some value := by
  constructor
  · intro h
    obtain ⟨⟨_, value⟩, hmem, rfl⟩ := List.mem_map.mp h
    exact ⟨value, get?_eq_some_iff.mpr hmem⟩
  · rintro ⟨value, h⟩
    exact List.mem_map_of_mem (get?_eq_some_iff.mp h)

theorem get?_eq_none_iff {r : Registry κ α} {key : κ} : r.get? key = none ↔ key ∉ r.keys := by
  rw [mem_keys_iff, Option.eq_none_iff_forall_ne_some, not_exists]

theorem contains_iff {r : Registry κ α} {key : κ} : r.contains key = true ↔ key ∈ r.keys := by
  rw [contains, Option.isSome_iff_exists, mem_keys_iff]

theorem find?_map (f : κ → α → β) (key : κ) (entries : List (κ × α)) :
    find? key (entries.map fun entry => (entry.1, f entry.1 entry.2)) =
      (find? key entries).map (f key) := by
  induction entries with
  | nil => rfl
  | cons entry rest ih =>
      by_cases heq : entry.1 = key
      · simp [find?, heq]
      · simp [find?, heq, ih]

theorem get?_mapValues (f : κ → α → β) (r : Registry κ α) (key : κ) :
    (r.mapValues f).get? key = (r.get? key).map (f key) :=
  find?_map f key r.entries

omit [DecidableEq κ] in
@[simp] theorem keys_mapValues (f : κ → α → β) (r : Registry κ α) :
    (r.mapValues f).keys = r.keys := by
  simp [keys, mapValues, Function.comp_def]

/-- Entering distinct pairs one after another replaces what was there before. -/
theorem get?_foldl_insert (pairs : List (κ × α)) (hnodup : (pairs.map (·.1)).Nodup)
    (r : Registry κ α) (key : κ) :
    (pairs.foldl (fun r pair => r.insert pair.1 pair.2) r).get? key =
      (find? key pairs).or (r.get? key) := by
  induction pairs generalizing r with
  | nil => rfl
  | cons pair rest ih =>
      obtain ⟨hnew, hrest⟩ := List.nodup_cons.mp hnodup
      rw [List.foldl_cons, ih hrest, get?_insert]
      by_cases heq : pair.1 = key
      · have hnone : find? key rest = none := by
          rw [Option.eq_none_iff_forall_ne_some]
          intro value h
          subst key
          exact hnew (List.mem_map.mpr ⟨_, mem_of_find?_eq_some h, rfl⟩)
        simp [find?, heq, hnone]
      · simp [find?, heq]

theorem upsertEntries_of_notMem {key : κ} (change : Option α → α) {entries : List (κ × α)}
    (h : key ∉ entries.map (·.1)) :
    upsertEntries key change entries = entries ++ [(key, change none)] := by
  induction entries with
  | nil => rfl
  | cons entry rest ih =>
      simp only [List.map_cons, List.mem_cons, not_or] at h
      simp [upsertEntries, Ne.symm h.1, ih h.2]

theorem entries_insert_of_notMem {r : Registry κ α} {key : κ} (h : key ∉ r.keys) (value : α) :
    (r.insert key value).entries = r.entries ++ [(key, value)] :=
  upsertEntries_of_notMem _ h

/-- Entering new pairs one after another puts them to the end. -/
theorem entries_foldl_insert (pairs : List (κ × α)) (r : Registry κ α)
    (hnodup : (r.keys ++ pairs.map (·.1)).Nodup) :
    (pairs.foldl (fun r pair => r.insert pair.1 pair.2) r).entries = r.entries ++ pairs := by
  induction pairs generalizing r with
  | nil => simp
  | cons pair rest ih =>
      have hnew : pair.1 ∉ r.keys := by
        intro hmem
        exact (List.nodup_append.mp hnodup).2.2 _ hmem _ List.mem_cons_self rfl
      have hentries := entries_insert_of_notMem hnew pair.2
      have hkeys : (r.insert pair.1 pair.2).keys = r.keys ++ [pair.1] := by
        rw [keys, hentries, List.map_append, keys, List.map_singleton]
      rw [List.foldl_cons, ih _ (by simpa [hkeys] using hnodup), hentries, List.append_assoc,
        List.singleton_append]

theorem keys_foldl_insert (pairs : List (κ × α)) (r : Registry κ α)
    (hnodup : (r.keys ++ pairs.map (·.1)).Nodup) :
    (pairs.foldl (fun r pair => r.insert pair.1 pair.2) r).keys =
      r.keys ++ pairs.map (·.1) := by
  rw [keys, entries_foldl_insert pairs r hnodup, List.map_append, keys]

theorem entries_ofList (pairs : List (κ × α)) (hnodup : (pairs.map (·.1)).Nodup) :
    (ofList pairs).entries = pairs := by
  rw [ofList, entries_foldl_insert pairs empty (by simpa using hnodup)]
  rfl

/-- The registry of what some distinct keys have, where they have anything. -/
theorem entries_ofList_filterMap {keys : List κ} (hnodup : keys.Nodup) (value? : κ → Option α) :
    (ofList (keys.filterMap fun key => (value? key).map fun value => (key, value))).entries =
      keys.filterMap fun key => (value? key).map fun value => (key, value) := by
  apply entries_ofList
  rw [List.Nodup, List.pairwise_map, List.pairwise_filterMap]
  apply hnodup.imp
  intro first second hne pair hpair pair' hpair'
  obtain ⟨_, _, rfl⟩ := Option.map_eq_some_iff.mp hpair
  obtain ⟨_, _, rfl⟩ := Option.map_eq_some_iff.mp hpair'
  exact hne

theorem keys_ofList (pairs : List (κ × α)) (hnodup : (pairs.map (·.1)).Nodup) :
    (ofList pairs).keys = pairs.map (·.1) := by
  rw [keys, entries_ofList pairs hnodup]

/-- A registry lists its keys with the values that are found under them. -/
theorem entries_eq_map_keys (r : Registry κ α) (default : α) :
    r.entries = r.keys.map fun key => (key, (r.get? key).getD default) := by
  rw [keys, List.map_map]
  refine (List.map_id r.entries).symm.trans (List.map_congr_left ?_)
  rintro ⟨key, value⟩ hmem
  simp [get?_eq_some_iff.mpr hmem]

theorem filter_eq_find? (key : κ) {entries : List (κ × α)} (hnodup : (entries.map (·.1)).Nodup) :
    entries.filter (·.1 = key) = ((find? key entries).map fun value => (key, value)).toList := by
  induction entries with
  | nil => rfl
  | cons entry rest ih =>
      obtain ⟨hnew, hrest⟩ := List.nodup_cons.mp hnodup
      by_cases heq : entry.1 = key
      · have hnone : rest.filter (·.1 = key) = [] := by
          apply List.filter_eq_nil_iff.mpr
          intro other hother
          simp only [decide_eq_true_eq]
          rintro rfl
          exact hnew (List.mem_map.mpr ⟨other, hother, heq.symm⟩)
        subst key
        simp [find?, hnone]
      · simp [find?, heq, ih hrest]

/-- The entries of a key are the one that is found under it, if any. -/
theorem filter_entries (r : Registry κ α) (key : κ) :
    r.entries.filter (·.1 = key) = ((r.get? key).map fun value => (key, value)).toList :=
  filter_eq_find? key r.nodup

end Registry

end ExportIndex
