import ExportIndex.Proofs.Snapshot.Provenance

/-!
# The union of the surfaces

A snapshot lists the bindings of all surfaces, module by module in the order of the table and name by
name in the order of each surface, and after them the modules that are offered as a whole. Entering them
into the index loses none: a surface lists a binding once under a name, entries of different modules have
different providers, and no surface lists a module as a whole.
-/

namespace ExportIndex

namespace ModuleTable

variable {table : ModuleTable} {key : ModuleKey} {name : String} {binding : Binding}

/-- The bindings that the surface of a module lists under a name, in its order. -/
def listedAt (table : ModuleTable) (name : String) (key : ModuleKey) : List Binding :=
  ((table.resolve.source key).named.get? name).getD []

/-- The name by which a module is offered as a whole. A file has none. -/
def wholeName? (entry : ModuleEntry) : Option String :=
  if entry.declaredIn?.isSome ∧ entry.resource.namespaceName ≠ "" then
    some entry.resource.namespaceName
  else none

/-- The entry of a module that is offered as a whole under a name. It comes from the file that declares
the module. -/
def wholeAt? (name : String) (entry : ModuleEntry) : Option DeclarationInfo :=
  entry.declaredIn?.bind fun file =>
    if wholeName? entry = some name then
      some
        { binding := entry.binding .whole
          declaration := .ofModule
            { name, exported := true, target := entry.key, span := entry.resource.span?.getD default }
          provider := entry.key
          origin := file }
    else none

theorem mem_bindings_of_mem_listedAt (h : binding ∈ table.listedAt name key) :
    binding ∈ (table.resolve.source key).bindings name := by
  cases hget : (table.resolve.source key).named.get? name with
  | none => simp [listedAt, hget] at h
  | some bindings =>
      rw [Surface.bindings_of_named (table.keeps_wellFormed.resolve key) hget]
      simpa [listedAt, hget] using h

/-- Whatever a surface lists is an item of a module, and no module as a whole. -/
theorem exists_info? (h : binding ∈ (table.resolve.source key).bindings name) :
    binding.slot ≠ .whole ∧ ∃ info, table.info? key binding = some info := by
  obtain ⟨entry, original, hhanded⟩ := (table.keeps_handedOn.resolve key).2 name binding h
  obtain ⟨hwhole, hitem⟩ := ModuleEntry.mem_slots_iff.mp
    (hhanded.exports.2.mem_slots (filled_of_get? hhanded.get?_origin))
  obtain ⟨declaration, hitem⟩ := Option.isSome_iff_exists.mp hitem
  refine ⟨hwhole, ?_⟩
  simp [info?, item?, hhanded.get?_origin, hitem]

/-- The entry is that of a binding which the surface of a module lists: it shows the item of the binding,
for this module, and comes from the module in which the item stands. -/
structure Presents (table : ModuleTable) (provider : ModuleKey) (binding : Binding)
    (info : DeclarationInfo) : Prop where
  binding_eq : info.binding = binding
  provider_eq : info.provider = provider
  origin_eq : info.origin = binding.origin
  item : ∃ entry, table.get? binding.origin = some entry ∧
    entry.item? binding.slot = some info.declaration

theorem presents_of_info? {info : DeclarationInfo} (h : table.info? key binding = some info) :
    table.Presents key binding info := by
  obtain ⟨hbinding, hprovider, horigin, hitem⟩ := info?_eq_some h
  exact ⟨hbinding, hprovider, horigin, Option.bind_eq_some_iff.mp hitem⟩

theorem identity_of_info? {info : DeclarationInfo} (h : table.info? key binding = some info) :
    info.identity = (binding, key) := by
  obtain ⟨rfl, rfl, -, -⟩ := info?_eq_some h
  rfl

theorem nodup_listedAt (table : ModuleTable) (name : String) (key : ModuleKey) :
    (table.listedAt name key).Nodup := by
  cases hget : (table.resolve.source key).named.get? name with
  | none => simp [listedAt, hget]
  | some bindings =>
      simpa [listedAt, hget] using (table.keeps_wellFormed.resolve key).nodup name bindings hget

theorem map_key_entries (table : ModuleTable) : table.entries.map (·.key) = table.keys := by
  rw [entries, Registry.values, List.map_map, keys, Registry.keys]
  exact List.map_congr_left fun pair hpair => table.keyed pair hpair

/-! ## The entries in order -/

/-- All that a snapshot lists, with the names. -/
def listing (table : ModuleTable) : List (String × DeclarationInfo) :=
  table.keys.flatMap (fun key => table.namedInfos key (table.resolve.source key)) ++
    table.entries.filterMap wholeInfo?

theorem under_namedInfos (table : ModuleTable) (name : String) (key : ModuleKey)
    (surface : Surface) :
    Snapshot.under name (table.namedInfos key surface) =
      ((surface.named.get? name).getD []).filterMap (table.info? key) := by
  have hfilter : Snapshot.under name (table.namedInfos key surface) =
      (surface.namedOffers.filter (·.name = name)).filterMap fun offer =>
        table.info? key offer.binding := by
    rw [Snapshot.under, namedInfos, List.filter_filterMap, List.map_filterMap,
      List.filterMap_filter]
    apply List.filterMap_congr
    intro offer _
    cases table.info? key offer.binding with
    | none => simp
    | some info => by_cases heq : offer.name = name <;> simp [Option.filter, heq]
  rw [hfilter, Surface.filter_namedOffers, List.filterMap_map]
  rfl

theorem wholeInfo?_eq {entry : ModuleEntry} (hfilled : entry.Filled) :
    wholeInfo? entry = (wholeName? entry).bind fun name =>
      (wholeAt? name entry).map fun info => (name, info) := by
  rw [wholeInfo?, hfilled.whole?_eq]
  cases hfile : entry.declaredIn? with
  | none => simp [wholeName?, ModuleEntry.wholeDeclaration?, hfile]
  | some file =>
      by_cases hname : entry.resource.namespaceName = ""
      · simp [wholeName?, ModuleEntry.wholeDeclaration?, hfile, hname]
      · simp [wholeName?, wholeAt?, ModuleEntry.wholeDeclaration?, hfile, hname, Declaration.name?]

theorem isSome_wholeAt? {entry : ModuleEntry} (h : wholeName? entry = some name) :
    (wholeAt? name entry).isSome := by
  obtain ⟨⟨hfile, -⟩, -⟩ := Option.ite_none_right_eq_some.mp h
  obtain ⟨file, hfile⟩ := Option.isSome_iff_exists.mp hfile
  simp [wholeAt?, hfile, h]

theorem under_wholes (table : ModuleTable) (name : String) :
    Snapshot.under name (table.entries.filterMap wholeInfo?) =
      table.entries.filterMap (wholeAt? name) := by
  rw [Snapshot.under, List.filter_filterMap, List.map_filterMap]
  apply List.filterMap_congr
  intro entry hentry
  rw [wholeInfo?_eq (filled_of_mem_entries hentry)]
  cases hname : wholeName? entry with
  | none => cases hfile : entry.declaredIn? <;> simp [wholeAt?, hname, hfile]
  | some other =>
      obtain ⟨info, hinfo⟩ := Option.isSome_iff_exists.mp (isSome_wholeAt? hname)
      by_cases heq : other = name
      · subst heq
        simp [hinfo, Option.filter]
      · have hnone : wholeAt? name entry = none := by
          cases hfile : entry.declaredIn? <;> simp [wholeAt?, hname, heq, hfile]
        simp [hinfo, hnone, heq, Option.filter]

/-- What is listed under a name: bindings module by module, then modules as a whole. -/
theorem under_listing (table : ModuleTable) (name : String) :
    Snapshot.under name table.listing =
      (table.keys.flatMap fun key => (table.listedAt name key).filterMap (table.info? key)) ++
        table.entries.filterMap (wholeAt? name) := by
  rw [listing, Snapshot.under_append, Snapshot.under_flatMap, under_wholes]
  simp only [under_namedInfos, listedAt]

/-- No listed binding is without an entry. -/
theorem map_some_listed (table : ModuleTable) (name : String) :
    (table.keys.flatMap fun key => (table.listedAt name key).filterMap (table.info? key)).map some =
      table.keys.flatMap fun key => (table.listedAt name key).map (table.info? key) := by
  rw [List.map_flatMap]
  apply List.flatMap_congr
  intro key _
  rw [List.map_filterMap, List.filterMap_eq_map_iff_forall_eq_some]
  intro binding hbinding
  obtain ⟨-, info, hinfo⟩ := exists_info? (mem_bindings_of_mem_listedAt hbinding)
  rw [hinfo, Option.map_some]

theorem forall₂_presents (table : ModuleTable) (name : String) :
    List.Forall₂ (fun listed info => table.Presents listed.1 listed.2 info)
      (table.keys.flatMap fun key => (table.listedAt name key).map fun binding => (key, binding))
      (table.keys.flatMap fun key => (table.listedAt name key).filterMap (table.info? key)) := by
  have hsame : (table.keys.flatMap fun key => (table.listedAt name key).map fun binding =>
        (key, binding)).map (fun listed => table.info? listed.1 listed.2) =
      (table.keys.flatMap fun key => (table.listedAt name key).filterMap (table.info? key)).map some := by
    rw [map_some_listed, List.map_flatMap]
    simp only [List.map_map, Function.comp_def]
  exact (map_eq_iff_forall₂.mp hsame).imp fun _ _ hinfo => presents_of_info? hinfo

theorem map_identity_listedAt (table : ModuleTable) (name : String) (key : ModuleKey) :
    ((table.listedAt name key).filterMap (table.info? key)).map DeclarationInfo.identity =
      (table.listedAt name key).map fun binding => (binding, key) := by
  rw [List.map_filterMap, List.filterMap_eq_map_iff_forall_eq_some]
  intro binding hbinding
  obtain ⟨-, info, hinfo⟩ := exists_info? (mem_bindings_of_mem_listedAt hbinding)
  rw [hinfo, Option.map_some, identity_of_info? hinfo]

theorem identity_of_wholeAt? {entry : ModuleEntry} {info : DeclarationInfo}
    (h : wholeAt? name entry = some info) :
    info.identity = (entry.binding .whole, entry.key) := by
  obtain ⟨file, -, hinfo⟩ := Option.bind_eq_some_iff.mp h
  obtain ⟨-, heq⟩ := Option.ite_none_right_eq_some.mp hinfo
  rw [← Option.some.inj heq]
  rfl

/-- Entries under a name can all be told apart. -/
theorem nodup_under_listing (table : ModuleTable) (name : String) :
    ((Snapshot.under name table.listing).map DeclarationInfo.identity).Nodup := by
  rw [under_listing, List.map_append, List.map_flatMap]
  simp only [map_identity_listedAt]
  refine List.nodup_append.mpr ⟨List.nodup_flatMap.mpr ⟨?_, ?_⟩, ?_, ?_⟩
  · exact fun key _ => (table.nodup_listedAt name key).map fun _ _ heq => congrArg Prod.fst heq
  · -- entries of different modules have different providers
    apply table.nodup_keys.imp
    intro first second hne entry hfirst hsecond
    obtain ⟨_, _, rfl⟩ := List.mem_map.mp hfirst
    obtain ⟨_, _, heq⟩ := List.mem_map.mp hsecond
    exact hne (congrArg Prod.snd heq).symm
  · have hkeys : (table.entries.map (·.key)).Nodup := table.map_key_entries ▸ table.nodup_keys
    rw [List.Nodup, List.pairwise_map, List.pairwise_filterMap]
    apply (List.pairwise_map.mp hkeys).imp
    intro first second hne info hinfo info' hinfo' heq
    rw [identity_of_wholeAt? hinfo, identity_of_wholeAt? hinfo'] at heq
    exact hne (congrArg Prod.snd heq)
  · rintro identity hlisted _ hwhole rfl
    obtain ⟨key, _, hlisted⟩ := List.mem_flatMap.mp hlisted
    obtain ⟨binding, hbinding, rfl⟩ := List.mem_map.mp hlisted
    obtain ⟨info, hinfo, heq⟩ := List.mem_map.mp hwhole
    obtain ⟨entry, _, hentry⟩ := List.mem_filterMap.mp hinfo
    rw [identity_of_wholeAt? hentry] at heq
    refine (exists_info? (mem_bindings_of_mem_listedAt hbinding)).1 ?_
    exact (congrArg (·.1.slot) heq).symm

theorem map_fst_namedInfos (table : ModuleTable) (key : ModuleKey) :
    (table.namedInfos key (table.resolve.source key)).map (·.1) =
      (table.resolve.source key).namedOffers.map (·.name) := by
  rw [namedInfos, List.map_filterMap, List.filterMap_eq_map_iff_forall_eq_some]
  intro offer hoffer
  have hlisted := (Surface.mem_namedOffers_iff (table.keeps_wellFormed.resolve key)).mp hoffer
  obtain ⟨-, info, hinfo⟩ := exists_info? hlisted.2
  rw [hinfo]
  rfl

theorem map_fst_listing (table : ModuleTable) :
    table.listing.map (·.1) =
      (table.keys.flatMap fun key => (table.resolve.source key).namedOffers.map (·.name)) ++
        table.entries.filterMap wholeName? := by
  rw [listing, List.map_append, List.map_flatMap, List.map_filterMap]
  simp only [map_fst_namedInfos]
  congr 1
  apply List.filterMap_congr
  intro entry hentry
  rw [wholeInfo?_eq (filled_of_mem_entries hentry)]
  cases hname : wholeName? entry with
  | none => rfl
  | some name =>
      obtain ⟨info, hinfo⟩ := Option.isSome_iff_exists.mp (isSome_wholeAt? hname)
      simp [hinfo]

end ModuleTable

namespace Snapshot

variable {table : ModuleTable}

/-- A snapshot lists all that the surfaces of a table list, and nothing else. -/
structure IsUnion (s : Snapshot) (table : ModuleTable) : Prop where
  /-- A name has its bindings module by module, and after them the modules as a whole. -/
  lookup_eq : ∀ name, (s.lookup name).map some =
    (table.keys.flatMap fun key => (table.listedAt name key).map (table.info? key)) ++
      (table.entries.filterMap (ModuleTable.wholeAt? name)).map some
  /-- The entries of the bindings show their items, each for the module whose surface lists it. -/
  lookup_presents : ∀ name, ∃ infos,
    s.lookup name = infos ++ table.entries.filterMap (ModuleTable.wholeAt? name) ∧
    List.Forall₂ (fun listed info => table.Presents listed.1 listed.2 info)
      (table.keys.flatMap fun key => (table.listedAt name key).map fun binding => (key, binding)) infos
  lookup_nodup : ∀ name, ((s.lookup name).map DeclarationInfo.identity).Nodup
  /-- The names come in the order in which a walk through the table first meets them. -/
  names_eq : s.names =
    ((table.keys.flatMap fun key => (table.resolve.source key).namedOffers.map (·.name)) ++
      table.entries.filterMap ModuleTable.wholeName?).eraseDups
  names_nodup : s.names.Nodup
  mem_names_iff : ∀ name, name ∈ s.names ↔ s.lookup name ≠ []
  defaults_eq : (s.defaults.entries.map fun (key, info) => (key, some info)) =
    table.keys.filterMap fun key =>
      (table.resolve.source key).default?.map fun binding => (key, table.info? key binding)
  defaults_present : List.Forall₂
    (fun listed entry => entry.1 = listed.1 ∧ table.Presents listed.1 listed.2 entry.2)
    (table.keys.filterMap fun key =>
      (table.resolve.source key).default?.map fun binding => (key, binding))
    s.defaults.entries
  assigned_eq : s.assigned.entries = table.keys.filterMap fun key =>
    (table.resolve.source key).assigned?.map fun value => (key, value)
  conflicts_eq : s.conflicts = table.keys.filter fun key => (table.resolve.source key).conflict

theorem index_assemble (table : ModuleTable) :
    (assemble table table.resolve).index = table.listing.foldl insertInfo .empty := by
  simp only [assemble, Surfaces.entries_eq_map_source, ModuleTable.keys_resolve, List.flatMap_map]
  rfl

theorem lookup_assemble (table : ModuleTable) (name : String) :
    (assemble table table.resolve).lookup name = under name table.listing := by
  rw [lookup, index_assemble, get?_foldl_insertInfo]
  · simp
  · simpa using table.nodup_under_listing

theorem map_some_lookup (table : ModuleTable) (name : String) :
    ((assemble table table.resolve).lookup name).map some =
      (table.keys.flatMap fun key => (table.listedAt name key).map (table.info? key)) ++
        (table.entries.filterMap (ModuleTable.wholeAt? name)).map some := by
  rw [lookup_assemble, ModuleTable.under_listing, List.map_append, ModuleTable.map_some_listed]

theorem names_assemble (table : ModuleTable) :
    (assemble table table.resolve).names = (table.listing.map (·.1)).eraseDups := by
  rw [names, index_assemble, keys_foldl_insertInfo]

theorem entries_defaults (table : ModuleTable) :
    ((assemble table table.resolve).defaults.entries.map fun (key, info) => (key, some info)) =
      table.keys.filterMap fun key =>
        (table.resolve.source key).default?.map fun binding => (key, table.info? key binding) := by
  simp only [assemble, Surfaces.entries_eq_map_source, ModuleTable.keys_resolve, List.filterMap_map,
    Function.comp_def]
  rw [Registry.entries_ofList_filterMap table.nodup_keys, List.map_filterMap]
  apply List.filterMap_congr
  intro key _
  cases hdefault : (table.resolve.source key).default? with
  | none => rfl
  | some binding =>
      obtain ⟨-, info, hinfo⟩ :=
        ModuleTable.exists_info? (Surface.mem_bindings_default.mpr hdefault)
      simp [hinfo]

theorem defaults_assemble_present (table : ModuleTable) :
    List.Forall₂ (fun listed entry => entry.1 = listed.1 ∧ table.Presents listed.1 listed.2 entry.2)
      (table.keys.filterMap fun key =>
        (table.resolve.source key).default?.map fun binding => (key, binding))
      (assemble table table.resolve).defaults.entries := by
  have hsame : (table.keys.filterMap fun key =>
        (table.resolve.source key).default?.map fun binding => (key, binding)).map
          (fun listed => (listed.1, table.info? listed.1 listed.2)) =
      (assemble table table.resolve).defaults.entries.map fun entry => (entry.1, some entry.2) := by
    rw [entries_defaults, List.map_filterMap]
    simp only [Option.map_map, Function.comp_def]
  refine (map_eq_iff_forall₂.mp hsame).imp fun listed entry heq => ?_
  obtain ⟨hkey, hinfo⟩ := Prod.mk.inj heq
  exact ⟨hkey.symm, ModuleTable.presents_of_info? hinfo⟩

theorem entries_assigned (table : ModuleTable) :
    (assemble table table.resolve).assigned.entries = table.keys.filterMap fun key =>
      (table.resolve.source key).assigned?.map fun value => (key, value) := by
  simp only [assemble, Surfaces.entries_eq_map_source, ModuleTable.keys_resolve, List.filterMap_map,
    Function.comp_def]
  exact Registry.entries_ofList_filterMap table.nodup_keys _

theorem conflicts_assemble (table : ModuleTable) :
    (assemble table table.resolve).conflicts =
      table.keys.filter fun key => (table.resolve.source key).conflict := by
  simp only [assemble, Surfaces.entries_eq_map_source, ModuleTable.keys_resolve, List.filter_map,
    List.map_map, Function.comp_def, List.map_id']

/-- The snapshot of a table is the union of its surfaces: in order, with nothing lost and nothing listed
twice. -/
theorem assemble_resolve_isUnion (table : ModuleTable) :
    (assemble table table.resolve).IsUnion table where
  lookup_eq := map_some_lookup table
  lookup_presents name :=
    ⟨_, by rw [lookup_assemble, ModuleTable.under_listing], table.forall₂_presents name⟩
  lookup_nodup name := by
    rw [lookup_assemble]
    exact table.nodup_under_listing name
  names_eq := by rw [names_assemble, ModuleTable.map_fst_listing]
  names_nodup := (assemble table table.resolve).index.nodup
  mem_names_iff name := by
    rw [names_assemble, List.mem_eraseDups, lookup_assemble, under_ne_nil_iff]
  defaults_eq := entries_defaults table
  defaults_present := defaults_assemble_present table
  assigned_eq := entries_assigned table
  conflicts_eq := conflicts_assemble table

end Snapshot

end ExportIndex
