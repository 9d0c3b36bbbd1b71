import ExportIndex.Proofs.Resolution.Invariant
import ExportIndex.Proofs.Table.Blocks

/-!
# The modules of a table

A table holds the files and, beside them, the modules that blocks declare under names that no file
has. The statements of every module are resolved against the keys of the whole table, so that what
they name is a neighbour of the module.
-/

namespace ExportIndex

namespace ModuleSources

theorem keys_entries (sources : ModuleSources) :
    sources.entries.map (·.1) = sources.files.keys ++ sources.ambients.keys := by
  rw [entries, List.map_append]
  exact congrArg₂ (· ++ ·) (Registry.keys_mapValues _ _) (Registry.keys_mapValues _ _)

variable (hoists : Bool) (resources : List Resource)

theorem nodup_keys_entries : ((ofResources hoists resources).entries.map (·.1)).Nodup := by
  rw [keys_entries]
  refine List.nodup_append.mpr ⟨Registry.nodup _, Registry.nodup _, ?_⟩
  rw [files_ofResources, keys_filesOf, keys_ambients]
  rintro key hfile name hname rfl
  exact (mem_hoistedNames_iff.mp hname).2.2 (List.mem_eraseDups.mp hfile)

end ModuleSources

namespace ModuleTable

open ModuleSources

variable (hoists : Bool) (resources : List Resource)

theorem entries_build_eq :
    (build hoists resources).modules.entries = (ofResources hoists resources).entries :=
  Registry.entries_ofList _ (nodup_keys_entries hoists resources)

theorem keys_build_eq : (build hoists resources).keys =
    (resources.map Resource.identifier).eraseDups ++ hoistedNames hoists resources := by
  rw [keys, Registry.keys, entries_build_eq, keys_entries, files_ofResources, keys_filesOf, keys_ambients]

/-- Statements are resolved against the keys of the table. -/
theorem isKnown_eq : (ofResources hoists resources).isKnown =
    fun key => decide (key ∈ (build hoists resources).keys) := by
  funext key
  rw [Bool.eq_iff_iff, decide_eq_true_iff, keys, Registry.keys, entries_build_eq, keys_entries,
    List.mem_append, isKnown, Bool.or_eq_true, Registry.contains_iff, Registry.contains_iff]

theorem get?_build_eq (key : ModuleKey) : (build hoists resources).get? key =
    (((ofResources hoists resources).files.get? key).map
        (ModuleEntry.ofResource (ofResources hoists resources).isKnown none key)).or
      (((ofResources hoists resources).ambients.get? key).map fun m =>
        ModuleEntry.ofResource (ofResources hoists resources).isKnown (some m.declaredIn) key
          m.resource) := by
  rw [get?, Registry.get?, entries_build_eq, ModuleSources.entries, Registry.find?_append]
  exact congrArg₂ Option.or (Registry.get?_mapValues _ _ key) (Registry.get?_mapValues _ _ key)

variable {hoists : Bool} {resources : List Resource} {key : ModuleKey}

/-- The last of the files with one key becomes the module. -/
theorem get?_build_of_mem (hkey : key ∈ resources.map Resource.identifier) :
    (build hoists resources).get? key = (resources.filter (·.identifier = key)).getLast?.map
      (ModuleEntry.ofResource (ofResources hoists resources).isKnown none key) := by
  rw [get?_build_eq, files_ofResources, get?_filesOf]
  cases hlast : (resources.filter (·.identifier = key)).getLast? with
  | none =>
      obtain ⟨r, hr, rfl⟩ := List.mem_map.mp hkey
      exact absurd (List.getLast?_eq_none_iff.mp hlast) (List.ne_nil_of_mem (List.mem_filter.mpr
        ⟨hr, decide_eq_true rfl⟩))
  | some r => rfl

/-- The blocks of one name become the module, unless a file has the name for a key. -/
theorem get?_build_of_notMem (hkey : key ∉ resources.map Resource.identifier) :
    (build hoists resources).get? key =
      (if hoists then joined? (blocksOf key resources) else none).map fun m =>
        ModuleEntry.ofResource (ofResources hoists resources).isKnown (some m.declaredIn) key
          m.resource := by
  have hfile : (ofResources hoists resources).files.get? key = none := by
    rw [Registry.get?_eq_none_iff, files_ofResources, keys_filesOf, List.mem_eraseDups]
    exact hkey
  rw [get?_build_eq, hfile, get?_ambients hoists resources hkey]
  rfl

theorem eq_ofResource_of_get? {entry : ModuleEntry}
    (hentry : (build hoists resources).get? key = some entry) :
    entry = ModuleEntry.ofResource (ofResources hoists resources).isKnown entry.declaredIn? key
      entry.resource := by
  rw [get?_build_eq, Option.or_eq_some_iff] at hentry
  rcases hentry with hentry | ⟨_, hentry⟩
  · obtain ⟨_, _, rfl⟩ := Option.map_eq_some_iff.mp hentry
    rfl
  · obtain ⟨_, _, rfl⟩ := Option.map_eq_some_iff.mp hentry
    rfl

end ModuleTable

/-! ## The parts of a module -/

/-- What a module lists by position is in step with the statements of its resource, and what the
statements name are modules of the table. -/
structure ModuleEntry.Aligned (entry : ModuleEntry) (table : ModuleTable) : Prop where
  length_locals : entry.locals.length = entry.resource.declarations.length
  length_nested : entry.nested.length = entry.resource.resources.length
  length_exportTargets : entry.exportTargets.length = entry.resource.exports.length
  length_importTargets : entry.importTargets.length = entry.resource.imports.length
  /-- The item at the position of a declaration is this declaration. -/
  locals_eq : ∀ index : Nat, entry.locals[index]? = entry.resource.declarations[index]?
  /-- The item at the position of a nested resource stands for this resource. -/
  nested_eq : ∀ (index : Nat) r, entry.resource.resources[index]? = some r → ∃ item,
    entry.nested[index]? = some (.ofModule item) ∧ item.name = r.name?.getD "" ∧
      item.target = item.name ∧ item.exported = r.exported ∧ item.span = r.span?.getD default
  exportTargets_eq : entry.exportTargets = entry.resource.exports.map fun e =>
    e.source?.bind (resolveSpecifier? (fun key => decide (key ∈ table.keys)) entry.key)
  importTargets_eq : entry.importTargets = entry.resource.imports.map fun i =>
    resolveSpecifier? (fun key => decide (key ∈ table.keys)) entry.key i.library
  /-- Every resolved target is a module and gives an edge. -/
  target_mem : ∀ target, some target ∈ entry.exportTargets ++ entry.importTargets →
    target ∈ table.keys ∧ target ∈ table.graph.neighbours entry.key
  /-- An item stands at the position of each `export * as` with a resolved target, and of no other
  export. -/
  starExports_iff : ∀ index item, entry.starExports.get? index = some item ↔
    ∃ specifier name span target,
      entry.resource.exports[index]? = some (.all specifier (some name) span) ∧
      entry.exportTargets[index]? = some (some target) ∧
      item = .ofModule { name, exported := true, target, span }
  /-- An item stands at the position of each import of a whole module with a resolved target, and of no
  other import. -/
  moduleImports_iff : ∀ index item, entry.moduleImports.get? index = some item ↔
    ∃ i name span target,
      entry.resource.imports[index]? = some i ∧ ModuleEntry.ImportsWhole i name span ∧
      entry.importTargets[index]? = some (some target) ∧
      item = .ofModule { name, exported := true, target, span }

/-- A table is made of some resources: the files come first and then the modules that blocks
declare, each once and under its own key, and all are aligned. -/
structure ModuleTable.MadeOf (table : ModuleTable) (hoists : Bool) (resources : List Resource) :
    Prop where
  keys_eq : table.keys = (resources.map Resource.identifier).eraseDups ++
    ModuleSources.hoistedNames hoists resources
  nodup : table.keys.Nodup
  key_eq : ∀ key entry, table.get? key = some entry → entry.key = key
  /-- The last of the files with one key becomes the module. -/
  file_eq : ∀ before r after, resources = before ++ r :: after →
    (∀ later ∈ after, later.identifier ≠ r.identifier) →
    ∃ entry, table.get? r.identifier = some entry ∧ entry.resource = r ∧ entry.declaredIn? = none
  aligned : ∀ key entry, table.get? key = some entry → entry.Aligned table

namespace ModuleEntry

theorem mem_targets_iff {entry : ModuleEntry} {target : ModuleKey} :
    target ∈ entry.targets ↔ some target ∈ entry.exportTargets ++ entry.importTargets := by
  simp [targets]

end ModuleEntry

namespace ModuleTable

open ModuleSources

variable {hoists : Bool} {resources : List Resource} {key : ModuleKey} {entry : ModuleEntry}

/-- A resolved target is one of the modules that statements are resolved against. -/
theorem mem_keys_of_target (hentry : (build hoists resources).get? key = some entry)
    {target : ModuleKey} (htarget : some target ∈ entry.exportTargets ++ entry.importTargets) :
    target ∈ (build hoists resources).keys := by
  rw [eq_ofResource_of_get? hentry, isKnown_eq] at htarget
  have hknown : ∀ specifier, resolveSpecifier? (fun key => decide (key ∈ (build hoists resources).keys))
      key specifier = some target → target ∈ (build hoists resources).keys := by
    intro specifier hresolve
    exact of_decide_eq_true (resolveSpecifier?_eq_some_iff.mp hresolve).1
  rcases List.mem_append.mp htarget with htarget | htarget
  · obtain ⟨e, _, he⟩ := List.mem_map.mp htarget
    obtain ⟨specifier, _, hresolve⟩ := Option.bind_eq_some_iff.mp he
    exact hknown specifier hresolve
  · obtain ⟨i, _, hresolve⟩ := List.mem_map.mp htarget
    exact hknown i.library hresolve

theorem aligned_of_get? (hentry : (build hoists resources).get? key = some entry) :
    entry.Aligned (build hoists resources) := by
  have heq := eq_ofResource_of_get? hentry
  rw [isKnown_eq] at heq
  have hfilled : entry.Filled := by
    rw [heq]
    exact ModuleEntry.filled_ofTargets _ _ _ _ _
  have hexports := congrArg ModuleEntry.exportTargets heq
  have himports := congrArg ModuleEntry.importTargets heq
  have hkey := key_of_get? hentry
  subst hkey
  exact {
    length_locals := by rw [hfilled.locals_eq]
    length_nested := by rw [hfilled.nested_eq, List.length_map]
    length_exportTargets := by rw [hexports]; exact List.length_map _
    length_importTargets := by rw [himports]; exact List.length_map _
    locals_eq := fun index => by rw [hfilled.locals_eq]
    nested_eq := fun index r hr => by
      rw [hfilled.nested_eq, List.getElem?_map, hr]
      exact ⟨_, rfl, rfl, rfl, rfl, rfl⟩
    exportTargets_eq := hexports
    importTargets_eq := himports
    target_mem := fun target htarget => by
      have hmem := mem_keys_of_target hentry htarget
      exact ⟨hmem, (mem_neighbours_iff hentry).mpr ⟨ModuleEntry.mem_targets_iff.mpr htarget, hmem⟩⟩
    starExports_iff := fun _ _ => hfilled.get?_starExports_eq_some_iff
    moduleImports_iff := fun _ _ => hfilled.get?_moduleImports_eq_some_iff }

/-- The table of any resources is well formed. Its keys are those of the files and of the modules
that blocks declare under other names, in the order in which they first come; the last file with a
key stands; and every list of a module is in step with its statements. -/
theorem build_madeOf (hoists : Bool) (resources : List Resource) :
    (build hoists resources).MadeOf hoists resources where
  keys_eq := keys_build_eq hoists resources
  nodup := nodup_keys _
  key_eq _ _ := key_of_get?
  file_eq before r after hsplit hlast := by
    have hmem : r.identifier ∈ resources.map Resource.identifier := by simp [hsplit]
    have hnone : after.filter (·.identifier = r.identifier) = [] :=
      List.filter_eq_nil_iff.mpr fun later hlater => by simpa using hlast later hlater
    have hfound : (resources.filter (·.identifier = r.identifier)).getLast? = some r := by
      simp [hsplit, List.filter_append, hnone]
    exact ⟨_, by rw [get?_build_of_mem hmem, hfound, Option.map_some], rfl, rfl⟩
  aligned _ _ := aligned_of_get?

end ModuleTable

end ExportIndex
