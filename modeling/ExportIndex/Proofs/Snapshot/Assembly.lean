import ExportIndex.Proofs.Collections.Registries
import ExportIndex.Snapshot

/-!
# What a snapshot lists

Everything in the index of a snapshot is a named binding of some surface, or a module that is offered
as a whole, and every default is the default binding of a surface. Of entries that can all be told
apart, none is lost when they are entered one after another.
-/

namespace ExportIndex

namespace DeclarationInfo

/-- What entries under one name are told apart by. -/
def identity (info : DeclarationInfo) : Binding × ModuleKey := (info.binding, info.provider)

theorem same_iff {first second : DeclarationInfo} :
    first.same second = true ↔ first.identity = second.identity := by
  simp [same, identity]

end DeclarationInfo

namespace ModuleTable

variable {table : ModuleTable} {provider : ModuleKey} {info : DeclarationInfo}

/-- An entry lists the item that its binding refers to. -/
theorem info?_eq_some {binding : Binding} (h : table.info? provider binding = some info) :
    info.binding = binding ∧ info.provider = provider ∧ info.origin = binding.origin ∧
      table.item? binding = some info.declaration := by
  obtain ⟨declaration, hitem, rfl⟩ := Option.map_eq_some_iff.mp h
  exact ⟨rfl, rfl, rfl, hitem⟩

theorem mem_namedInfos_iff {surface : Surface} {name : String} :
    (name, info) ∈ table.namedInfos provider surface ↔
      ∃ binding, ⟨name, binding⟩ ∈ surface.namedOffers ∧
        table.info? provider binding = some info := by
  simp only [namedInfos, List.mem_filterMap, Option.map_eq_some_iff, Prod.mk.injEq]
  constructor
  · rintro ⟨offer, hoffer, found, hfound, rfl, rfl⟩
    exact ⟨offer.binding, hoffer, hfound⟩
  · rintro ⟨binding, hoffer, hfound⟩
    exact ⟨⟨name, binding⟩, hoffer, info, hfound, rfl, rfl⟩

end ModuleTable

namespace Snapshot

variable {name : String} {info : DeclarationInfo}

theorem mem_insertInfo {index : Registry String (List DeclarationInfo)}
    {entry : String × DeclarationInfo}
    (h : info ∈ ((insertInfo index entry).get? name).getD []) :
    info ∈ (index.get? name).getD [] ∨ (name, info) = entry := by
  obtain ⟨name', info'⟩ := entry
  unfold insertInfo at h
  rw [Registry.get?_upsert] at h
  split at h
  next heq =>
    subst heq
    cases hget : index.get? name' with
    | none =>
        obtain rfl : info = info' := by simpa [hget] using h
        exact .inr rfl
    | some infos =>
        by_cases hsame : infos.any (·.same info')
        · exact .inl (by simpa [hget, hsame] using h)
        · have hor : info ∈ infos ∨ info = info' := by simpa [hget, hsame] using h
          exact hor.imp (fun hmem => by simpa using hmem) fun heq => by rw [heq]
  next => exact .inl h

theorem mem_foldl_insertInfo {entries : List (String × DeclarationInfo)}
    {index : Registry String (List DeclarationInfo)}
    (h : info ∈ ((entries.foldl insertInfo index).get? name).getD []) :
    info ∈ (index.get? name).getD [] ∨ (name, info) ∈ entries := by
  induction entries generalizing index with
  | nil => exact .inl h
  | cons entry rest ih =>
      rcases ih h with hbefore | hrest
      · rcases mem_insertInfo hbefore with hindex | heq
        · exact .inl hindex
        · exact .inr (heq ▸ List.mem_cons_self)
      · exact .inr (List.mem_cons_of_mem _ hrest)

/-! ## Entries that can be told apart -/

/-- The entries of a name, in order. -/
def under (name : String) (entries : List (String × DeclarationInfo)) : List DeclarationInfo :=
  (entries.filter (·.1 = name)).map (·.2)

theorem under_append (name : String) (first second : List (String × DeclarationInfo)) :
    under name (first ++ second) = under name first ++ under name second := by
  simp [under]

theorem under_flatMap {α : Type} (name : String) (items : List α)
    (entries : α → List (String × DeclarationInfo)) :
    under name (items.flatMap entries) = items.flatMap fun item => under name (entries item) := by
  rw [under, List.filter_flatMap, List.map_flatMap]
  rfl

theorem under_ne_nil_iff {entries : List (String × DeclarationInfo)} :
    under name entries ≠ [] ↔ name ∈ entries.map (·.1) := by
  simp [under, List.filter_eq_nil_iff]

theorem get?_insertInfo {index : Registry String (List DeclarationInfo)}
    {entry : String × DeclarationInfo}
    (hnew : entry.2.identity ∉ ((index.get? entry.1).getD []).map DeclarationInfo.identity)
    (name : String) :
    ((insertInfo index entry).get? name).getD [] =
      (index.get? name).getD [] ++ under name [entry] := by
  obtain ⟨other, info⟩ := entry
  unfold insertInfo
  rw [Registry.get?_upsert]
  by_cases heq : other = name
  · subst heq
    cases hget : index.get? other with
    | none => simp [under]
    | some infos =>
        have hnot : infos.any (·.same info) = false := by
          rw [List.any_eq_false]
          intro found hfound hsame
          rw [hget] at hnew
          exact hnew (List.mem_map.mpr ⟨found, hfound, DeclarationInfo.same_iff.mp hsame⟩)
        simp [hnot, under]
  · simp [heq, under]

/-- No entry is lost when all can be told apart. -/
theorem get?_foldl_insertInfo {entries : List (String × DeclarationInfo)}
    {index : Registry String (List DeclarationInfo)}
    (hnodup : ∀ name, (((index.get? name).getD [] ++ under name entries).map
      DeclarationInfo.identity).Nodup) (name : String) :
    ((entries.foldl insertInfo index).get? name).getD [] =
      (index.get? name).getD [] ++ under name entries := by
  induction entries generalizing index with
  | nil => simp [under]
  | cons entry rest ih =>
      have hsplit : ∀ name, under name (entry :: rest) = under name [entry] ++ under name rest :=
        fun name => under_append name [entry] rest
      have hnew : entry.2.identity ∉
          ((index.get? entry.1).getD []).map DeclarationInfo.identity := by
        intro hmem
        have hentry := hnodup entry.1
        rw [List.map_append] at hentry
        exact (List.nodup_append.mp hentry).2.2 _ hmem _ (by simp [under]) rfl
      -- entering the first entry moves it from the list to the end of the index
      have hstep := get?_insertInfo hnew
      have hrest : ∀ name, (((insertInfo index entry).get? name).getD [] ++ under name rest) =
          (index.get? name).getD [] ++ under name (entry :: rest) := by
        intro name
        rw [hstep, hsplit, List.append_assoc]
      rw [List.foldl_cons, ih fun name => by rw [hrest]; exact hnodup name, hrest]

/-- The entries of a name after one more was entered. -/
def addInfo (entry : String × DeclarationInfo) :
    Option (List DeclarationInfo) → List DeclarationInfo
  | some infos => if infos.any (·.same entry.2) then infos else infos ++ [entry.2]
  | none => [entry.2]

/-- An index holds the names in the order in which they first came. -/
theorem keys_foldl_insertInfo (entries : List (String × DeclarationInfo)) :
    (entries.foldl insertInfo .empty).keys = (entries.map (·.1)).eraseDups :=
  Registry.keys_foldl_upsert (·.1) addInfo entries

variable {table : ModuleTable} {surfaces : Surfaces}

/-- Whatever is found under a name is a named binding of a module or a module as a whole. -/
theorem mem_lookup_assemble (h : info ∈ (assemble table surfaces).lookup name) :
    (∃ key surface, (key, surface) ∈ surfaces.entries ∧
      (name, info) ∈ table.namedInfos key surface) ∨
    ∃ entry ∈ table.entries, ModuleTable.wholeInfo? entry = some (name, info) := by
  rcases mem_foldl_insertInfo h with hempty | hmem
  · simp at hempty
  · rcases List.mem_append.mp hmem with hmem | hmem
    · obtain ⟨⟨key, surface⟩, hentry, hinfo⟩ := List.mem_flatMap.mp hmem
      exact .inl ⟨key, surface, hentry, hinfo⟩
    · exact .inr (List.mem_filterMap.mp hmem)

theorem default?_assemble {key : ModuleKey} (h : (assemble table surfaces).default? key = some info) :
    ∃ surface binding, (key, surface) ∈ surfaces.entries ∧ surface.default? = some binding ∧
      table.info? key binding = some info := by
  have hmem := Registry.mem_of_mem_ofList (Registry.get?_eq_some_iff.mp h)
  obtain ⟨⟨key', surface⟩, hentry, hinfo⟩ := List.mem_filterMap.mp hmem
  obtain ⟨found, hbind, heq⟩ := Option.map_eq_some_iff.mp hinfo
  obtain ⟨binding, hdefault, hfound⟩ := Option.bind_eq_some_iff.mp hbind
  obtain ⟨rfl, rfl⟩ : key' = key ∧ found = info := by simpa using heq
  exact ⟨surface, binding, hentry, hdefault, hfound⟩

end Snapshot

end ExportIndex
