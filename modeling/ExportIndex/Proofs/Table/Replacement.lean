import ExportIndex.Proofs.Table.Modules

/-!
# Files with one key

Of several files with one key the last stands, in the place of the first. Their blocks are joined
all the same, those of the others too. Leaving the others out therefore makes the same table only if
the blocks that are left make the same modules.
-/

namespace ExportIndex

namespace ModuleSources

/-- The files that stand: for every key the last file that has it, in the order in which the keys
first come. -/
def latest (resources : List Resource) : List Resource :=
  (resources.map Resource.identifier).eraseDups.filterMap fun key =>
    (resources.filter (·.identifier = key)).getLast?

/-- The blocks of some files make the same modules as those of others. -/
structure SameHoisted (first second : List Resource) : Prop where
  names_eq : hoistedNames true first = hoistedNames true second
  joined?_eq : ∀ name ∈ hoistedNames true second,
    joined? (blocksOf name first) = joined? (blocksOf name second)

/-! ## The files that stand -/

theorem values_filesOf (resources : List Resource) : (filesOf resources).values = latest resources := by
  rw [Registry.values, Registry.entries_eq_filterMap_keys, keys_filesOf, List.map_filterMap, latest]
  refine List.filterMap_congr fun key _ => ?_
  rw [get?_filesOf, Option.map_map]
  exact Option.map_id'

/-- Files stand under their own keys. -/
theorem identifier_of_mem_filesOf {resources : List Resource} {pair : ModuleKey × Resource}
    (h : pair ∈ (filesOf resources).entries) : pair.2 ∈ resources ∧ pair.2.identifier = pair.1 := by
  obtain ⟨r, hr, rfl⟩ := List.mem_map.mp (Registry.mem_of_mem_ofList h)
  exact ⟨hr, rfl⟩

theorem filesOf_latest (resources : List Resource) : filesOf (latest resources) = filesOf resources := by
  have hpairs : (latest resources).map (fun r => (r.identifier, r)) = (filesOf resources).entries := by
    rw [← values_filesOf, Registry.values, List.map_map]
    refine (List.map_congr_left ?_).trans (List.map_id _)
    rintro ⟨key, r⟩ hmem
    exact congrArg (·, r) (identifier_of_mem_filesOf hmem).2
  rw [filesOf, hpairs, Registry.ofList_entries]

/-- Two lists of files leave the same files if they have the same files under all keys. -/
theorem latest_eq_iff {first second : List Resource} :
    latest first = latest second ↔ filesOf first = filesOf second := by
  constructor
  · intro h
    rw [← filesOf_latest first, h, filesOf_latest]
  · intro h
    rw [← values_filesOf, h, values_filesOf]

theorem mem_identifiers_iff {first second : List Resource} (h : filesOf first = filesOf second)
    (key : ModuleKey) :
    key ∈ first.map Resource.identifier ↔ key ∈ second.map Resource.identifier := by
  rw [← List.mem_eraseDups, ← keys_filesOf, h, keys_filesOf, List.mem_eraseDups]

/-! ## The blocks that are left -/

section Blocks

variable {β : Type} (f : Resource → List β)

theorem flatMap_upsertEntries_of_nil {key : ModuleKey} {r : Resource} (hr : f r = [])
    {entries : List (ModuleKey × Resource)} (hentries : ∀ pair ∈ entries, pair.1 = key → f pair.2 = []) :
    ((Registry.upsertEntries key (fun _ => r) entries).map (·.2)).flatMap f =
      (entries.map (·.2)).flatMap f := by
  induction entries with
  | nil => simp [Registry.upsertEntries, hr]
  | cons pair rest ih =>
      have hrest := ih fun other hother => hentries other (List.mem_cons_of_mem _ hother)
      by_cases heq : pair.1 = key
      · simp [Registry.upsertEntries, heq, hr, hentries pair List.mem_cons_self heq]
      · simpa [Registry.upsertEntries, heq] using hrest

/-- Leaving files out loses nothing that only files with a key of their own have. -/
theorem flatMap_latest {resources : List Resource}
    (h : ∀ before r after, resources = before ++ r :: after →
      (∃ other ∈ before ++ after, other.identifier = r.identifier) → f r = []) :
    (latest resources).flatMap f = resources.flatMap f := by
  induction resources using List.reverseRecOn with
  | nil => rfl
  | append_singleton resources r ih =>
      have hbefore := ih fun before other after hsplit ⟨same, hsame, hkey⟩ =>
        h before other (after ++ [r]) (by simp [hsplit]) ⟨same, by
          rw [← List.append_assoc]
          exact List.mem_append_left _ hsame, hkey⟩
      have hinsert : filesOf (resources ++ [r]) = (filesOf resources).insert r.identifier r := by
        simp [filesOf, Registry.ofList, List.foldl_append]
      rw [← values_filesOf, hinsert, List.flatMap_append, List.flatMap_singleton, ← hbefore,
        ← values_filesOf]
      by_cases hmem : r.identifier ∈ (filesOf resources).keys
      · obtain ⟨same, hsame, hkey⟩ := List.mem_map.mp
          (List.mem_eraseDups.mp (keys_filesOf resources ▸ hmem))
        have hr : f r = [] := h resources r [] rfl ⟨same, by simpa using hsame, hkey⟩
        rw [hr, List.append_nil]
        refine flatMap_upsertEntries_of_nil f hr fun pair hpair heq => ?_
        obtain ⟨hstands, hown⟩ := identifier_of_mem_filesOf hpair
        obtain ⟨before, after, rfl⟩ := List.append_of_mem hstands
        exact h before pair.2 (after ++ [r]) (by simp)
          ⟨r, by simp, by rw [hown, heq]⟩
      · rw [Registry.values, Registry.entries_insert_of_notMem hmem, List.map_append,
          List.flatMap_append]
        simp [Registry.values]

end Blocks

theorem blocks_latest {resources : List Resource}
    (h : ∀ before r after, resources = before ++ r :: after →
      (∃ other ∈ before ++ after, other.identifier = r.identifier) → r.moduleBlocks = []) :
    blocks (latest resources) = blocks resources :=
  flatMap_latest _ fun before r after hsplit hother => by rw [h before r after hsplit hother]; rfl

theorem get?_ambients_eq (resources : List Resource) (name : ModuleKey) :
    (ofResources true resources).ambients.get? name =
      if name ∈ hoistedNames true resources then joined? (blocksOf name resources) else none := by
  by_cases hname : name ∈ hoistedNames true resources
  · rw [get?_ambients true resources (mem_hoistedNames_iff.mp hname).2.2, if_pos rfl, if_pos hname]
  · rw [if_neg hname, Registry.get?_eq_none_iff, keys_ambients]
    exact hname

/-- The modules beside the files are known by their names and by the blocks that make them. -/
theorem ambients_eq_iff {first second : List Resource} :
    (ofResources true first).ambients = (ofResources true second).ambients ↔
      SameHoisted first second := by
  constructor
  · intro h
    have hnames : hoistedNames true first = hoistedNames true second := by
      rw [← keys_ambients, h, keys_ambients]
    refine ⟨hnames, fun name hname => ?_⟩
    have hget := congrArg (·.get? name) h
    rwa [get?_ambients_eq, get?_ambients_eq, hnames, if_pos hname, if_pos hname] at hget
  · intro h
    apply Registry.ext_keys
    · rw [keys_ambients, keys_ambients, h.names_eq]
    · intro name
      rw [get?_ambients_eq, get?_ambients_eq, h.names_eq]
      split
      next hname => exact h.joined?_eq name hname
      next => rfl

end ModuleSources

namespace ModuleTable

open ModuleSources

variable {hoists : Bool} {first second : List Resource}

theorem build_congr (h : ofResources hoists first = ofResources hoists second) :
    build hoists first = build hoists second := by
  simp only [build, h]

/-- What a table holds beside the files can be read off it. -/
theorem ambients_eq_of_build (hfiles : filesOf first = filesOf second)
    (h : build hoists first = build hoists second) :
    (ofResources hoists first).ambients = (ofResources hoists second).ambients := by
  have hentries : (ofResources hoists first).entries = (ofResources hoists second).entries := by
    rw [← entries_build_eq, h, entries_build_eq]
  have hlength : ((ofResources hoists first).files.mapValues fun key r =>
      ModuleEntry.ofResource (ofResources hoists first).isKnown none key r).entries.length =
        ((ofResources hoists second).files.mapValues fun key r =>
          ModuleEntry.ofResource (ofResources hoists second).isKnown none key r).entries.length := by
    simp [Registry.mapValues, files_ofResources, hfiles]
  have hambients := (List.append_inj hentries hlength).2
  -- an entry tells the blocks that made it from those that did not
  have hread : ∀ (isKnown : ModuleKey → Bool) (ambients : Registry ModuleKey AmbientModule),
      (ambients.mapValues fun key m => ModuleEntry.ofResource isKnown (some m.declaredIn) key
        m.resource).entries.map (fun pair => (pair.1, pair.2.resource, pair.2.declaredIn?)) =
      ambients.entries.map fun pair => (pair.1, pair.2.resource, some pair.2.declaredIn) := by
    intro isKnown ambients
    simp [Registry.mapValues, ModuleEntry.ofResource, ModuleEntry.ofTargets]
  have hparts := congrArg (List.map fun pair => (pair.1, pair.2.resource, pair.2.declaredIn?)) hambients
  rw [hread, hread] at hparts
  apply Registry.ext_entries
  refine List.map_injective_iff.mpr ?_ hparts
  rintro ⟨key, resource, file⟩ ⟨key', resource', file'⟩ heq
  simp_all

/-- With the same files under all keys, two tables differ only if blocks are hoisted and make other
modules. -/
theorem build_eq_iff (hfiles : filesOf first = filesOf second) :
    build hoists first = build hoists second ↔ (hoists = true → SameHoisted first second) := by
  constructor
  · rintro h rfl
    exact ambients_eq_iff.mp (ambients_eq_of_build hfiles h)
  · intro h
    apply build_congr
    cases hoists with
    | false => simp [ofResources, hfiles]
    | true =>
        have hambients := ambients_eq_iff.mpr (h rfl)
        exact congrArg₂ ModuleSources.mk hfiles hambients

/-- Where no file that shares its key with another has blocks, leaving files out changes nothing. -/
theorem build_latest_of_blocks {resources : List Resource}
    (h : ∀ before r after, resources = before ++ r :: after →
      (∃ other ∈ before ++ after, other.identifier = r.identifier) → r.moduleBlocks = []) :
    build hoists (latest resources) = build hoists resources := by
  have hfiles := filesOf_latest resources
  have hblocks := blocks_latest h
  refine (build_eq_iff hfiles).mpr fun _ => ⟨?_, fun name _ => ?_⟩
  · simp only [hoistedNames, blockNames, hblocks, mem_identifiers_iff hfiles]
  · rw [blocksOf, hblocks, blocksOf]

end ModuleTable

end ExportIndex
