import ExportIndex.Proofs.Session.Builds
import ExportIndex.Proofs.Table.Merging
import ExportIndex.Proofs.Table.Replacement

/-!
# Files that are listed again

A file that is listed once more stands once, but its blocks are joined with themselves. The snapshot
stays the same only if there is nothing in them that would come twice.
-/

namespace ExportIndex

/-- Nothing in a block would be seen twice if the block came twice. -/
structure Resource.HoldsNothing (block : Resource) : Prop where
  declarations_eq : block.declarations = []
  imports_eq : block.imports = []
  exports_eq : block.exports = []
  resources_eq : block.resources = []

theorem Resource.merge_of_holdsNothing {r block : Resource} (hblock : block.HoldsNothing)
    (husages : block.usages.toList ⊆ r.usages.toList) : r.merge block = r := by
  simp only [merge, hblock.declarations_eq, hblock.imports_eq, hblock.exports_eq,
    hblock.resources_eq, List.map_nil, List.append_nil, NameSet.union_of_subset husages]
  cases r
  rfl

namespace ModuleSources

variable {before after : List Resource} {r : Resource} {name : ModuleKey}

theorem blocksOf_subset (hmem : r ∈ before) : blocksOf name [r] ⊆ blocksOf name before := by
  obtain ⟨first, rest, rfl⟩ := List.append_of_mem hmem
  rw [blocksOf_append, blocksOf_cons name r rest]
  exact fun block hblock => List.mem_append_right _ (List.mem_append_left _ hblock)

/-- Nothing comes again with a file that is listed once more: the same files stand, and the blocks of
the file that make modules hold nothing. -/
structure NothingAgain (hoists : Bool) (before : List Resource) (r : Resource)
    (after : List Resource) : Prop where
  latest_eq : latest (before ++ r :: after) = latest (before ++ after)
  holdsNothing : hoists = true → ∀ block ∈ r.moduleBlocks,
    block.identifier ∉ (before ++ after).map Resource.identifier → block.HoldsNothing

/-- Blocks that have come before and hold nothing make no difference when they come again. -/
theorem joined?_append_of_holdsNothing {earlier again : List AmbientModule} (hmem : again ⊆ earlier)
    (hnothing : ∀ block ∈ again, block.resource.HoldsNothing) :
    joined? (earlier ++ again) = joined? earlier := by
  induction again using List.reverseRecOn with
  | nil => rw [List.append_nil]
  | append_singleton again block ih =>
      have hearlier : again ⊆ earlier := fun other hother => hmem (List.mem_append_left _ hother)
      have hrest := ih hearlier fun other hother => hnothing other (List.mem_append_left _ hother)
      have hblock : block ∈ again ++ [block] := List.mem_append_right _ List.mem_cons_self
      rw [← List.append_assoc, joined?_concat, hrest]
      obtain ⟨whole, hwhole⟩ := exists_joined?_of_mem (hmem hblock)
      have husages : block.resource.usages.toList ⊆ whole.resource.usages.toList := by
        rw [(concatenates_of_joined? hwhole).usages_eq]
        intro used hused
        rw [List.mem_eraseDups, List.mem_flatMap]
        exact ⟨_, List.mem_map_of_mem (hmem hblock), hused⟩
      rw [hwhole, joinBlock, Resource.merge_of_holdsNothing (hnothing block hblock) husages]

theorem joined?_append_congr {first first' : List AmbientModule} (h : joined? first = joined? first')
    (second : List AmbientModule) : joined? (first ++ second) = joined? (first' ++ second) := by
  rw [joined?_append, h, joined?_append]

/-- A file that is listed again brings no new key. -/
theorem eraseDups_identifiers_repeat (hmem : r ∈ before) :
    ((before ++ r :: after).map Resource.identifier).eraseDups =
      ((before ++ after).map Resource.identifier).eraseDups := by
  have hsubset : [r.identifier] ⊆ before.map Resource.identifier := by
    simpa using ⟨r, hmem, rfl⟩
  simpa using eraseDups_append_append_of_subset hsubset (after.map Resource.identifier)

theorem mem_identifiers_repeat (hmem : r ∈ before) (key : ModuleKey) :
    key ∈ (before ++ r :: after).map Resource.identifier ↔
      key ∈ (before ++ after).map Resource.identifier := by
  rw [← List.mem_eraseDups, eraseDups_identifiers_repeat hmem, List.mem_eraseDups]

/-- A file that is listed again brings no new name. -/
theorem hoistedNames_repeat (hmem : r ∈ before) :
    hoistedNames true (before ++ r :: after) = hoistedNames true (before ++ after) := by
  have hsubset : blockNames [r] ⊆ blockNames before := by
    intro name hname
    rw [← blocksOf_ne_nil_iff] at hname ⊢
    exact fun hnil => hname (List.subset_nil.mp (hnil ▸ blocksOf_subset hmem))
  have hnames : (blockNames (before ++ r :: after)).eraseDups =
      (blockNames (before ++ after)).eraseDups := by
    simpa [blockNames, blocks] using
      eraseDups_append_append_of_subset hsubset (blockNames after)
  simp only [hoistedNames, hnames, mem_identifiers_repeat hmem]

/-- If all the blocks that a file would bring again hold nothing, the same modules are made. -/
theorem sameHoisted_repeat (hmem : r ∈ before)
    (hnothing : ∀ block ∈ r.moduleBlocks, block.identifier ∉ (before ++ after).map Resource.identifier →
      block.HoldsNothing) :
    SameHoisted (before ++ r :: after) (before ++ after) := by
  refine ⟨hoistedNames_repeat hmem, fun name hname => ?_⟩
  have hunshadowed := (mem_hoistedNames_iff.mp hname).2.2
  rw [blocksOf_append, blocksOf_cons name r after, blocksOf_append, ← List.append_assoc]
  refine joined?_append_congr (joined?_append_of_holdsNothing (blocksOf_subset hmem) ?_) _
  intro block hblock
  obtain ⟨hblock, hidentifier⟩ := List.mem_filter.mp hblock
  obtain ⟨file, hfile, hinner, -⟩ := mem_blocks_iff.mp hblock
  obtain rfl := List.mem_singleton.mp hfile
  exact hnothing _ hinner (by rwa [of_decide_eq_true hidentifier])

/-- Blocks that come again make the same module only if they hold nothing. -/
theorem holdsNothing_of_joined? {earlier again later : List AmbientModule}
    {whole whole' : AmbientModule} (hwhole : joined? (earlier ++ (again ++ later)) = some whole)
    (hwhole' : joined? (earlier ++ later) = some whole') (h : whole.resource = whole'.resource) :
    ∀ block ∈ again, block.resource.HoldsNothing := by
  have htwice := concatenates_of_joined? hwhole
  have honce := concatenates_of_joined? hwhole'
  rw [h] at htwice
  -- what stands between two lists is nothing if leaving it out does not change the length
  have hnone : ∀ {α : Type} (part : Resource → List α),
      (((earlier ++ (again ++ later)).map (·.resource)).flatMap part).length =
        (((earlier ++ later).map (·.resource)).flatMap part).length →
      ∀ block ∈ again, part block.resource = [] := by
    intro α part hlength block hblock
    have hempty : ((again.map (·.resource)).flatMap part).length = 0 := by
      simp only [List.map_append, List.flatMap_append, List.length_append] at hlength
      omega
    exact List.flatMap_eq_nil_iff.mp (List.length_eq_zero_iff.mp hempty) _ (List.mem_map_of_mem hblock)
  intro block hblock
  exact {
    declarations_eq := hnone Resource.declarations
      (by rw [← htwice.declarations_eq, honce.declarations_eq]) block hblock
    imports_eq := hnone Resource.imports
      (by rw [← htwice.imports_eq, honce.imports_eq]) block hblock
    exports_eq := hnone Resource.exports
      (by rw [← htwice.length_exports, honce.length_exports]) block hblock
    resources_eq := hnone Resource.resources
      (by rw [← htwice.resources_eq, honce.resources_eq]) block hblock }

end ModuleSources

namespace Snapshot

open ModuleSources

variable {hoists : Bool} {first second before after : List Resource} {r : Resource}

theorem get?_resources (hoists : Bool) (resources : List Resource) (key : ModuleKey) :
    (ofResources hoists resources).resources.get? key =
      ((ModuleTable.build hoists resources).get? key).map (·.resource) :=
  Registry.get?_mapValues _ _ key

/-- The files that stand can be read off a snapshot. -/
theorem filesOf_eq_of_ofResources
    (hkeys : (first.map Resource.identifier).eraseDups = (second.map Resource.identifier).eraseDups)
    (h : ofResources hoists first = ofResources hoists second) : filesOf first = filesOf second := by
  apply Registry.ext_keys
  · rw [keys_filesOf, keys_filesOf, hkeys]
  · intro key
    have hget := congrArg (fun s : Snapshot => s.resources.get? key) h
    by_cases hkey : key ∈ first.map Resource.identifier
    · have hkey' : key ∈ second.map Resource.identifier := by
        rwa [← List.mem_eraseDups, ← hkeys, List.mem_eraseDups]
      have hself : ∀ isKnown, (fun r => (ModuleEntry.ofResource isKnown none key r).resource) = id :=
        fun _ => rfl
      simpa [get?_resources, ModuleTable.get?_build_of_mem hkey, ModuleTable.get?_build_of_mem hkey',
        get?_filesOf, Function.comp_def, hself] using hget
    · have hkey' : key ∉ second.map Resource.identifier := by
        rwa [← List.mem_eraseDups, ← hkeys, List.mem_eraseDups]
      have hnone : ∀ {resources : List Resource}, key ∉ resources.map Resource.identifier →
          (filesOf resources).get? key = none := by
        intro resources hnot
        rwa [Registry.get?_eq_none_iff, keys_filesOf, List.mem_eraseDups]
      rw [hnone hkey, hnone hkey']

/-- Listing a file again changes nothing exactly if nothing comes again. -/
theorem ofResources_repeat_iff (hmem : r ∈ before) :
    ofResources hoists (before ++ r :: after) = ofResources hoists (before ++ after) ↔
      NothingAgain hoists before r after := by
  constructor
  · intro h
    have hfiles := filesOf_eq_of_ofResources (eraseDups_identifiers_repeat hmem) h
    refine ⟨latest_eq_iff.mpr hfiles, ?_⟩
    rintro rfl block hblock hkey
    have hagain : ⟨block, r.identifier⟩ ∈ blocksOf block.identifier [r] :=
      List.mem_filter.mpr ⟨mem_blocks_iff.mpr ⟨r, List.mem_cons_self, hblock, rfl⟩, by simp⟩
    have hsplit := blocksOf_append block.identifier before (r :: after)
    rw [blocksOf_cons block.identifier r after] at hsplit
    have hget := congrArg (fun s : Snapshot => s.resources.get? block.identifier) h
    simp only [get?_resources, if_true, ModuleTable.get?_build_of_notMem hkey, hsplit,
      ModuleTable.get?_build_of_notMem (mt (mem_identifiers_repeat hmem _).mp hkey),
      blocksOf_append block.identifier before after] at hget
    have hbefore := blocksOf_subset hmem hagain
    obtain ⟨whole, hwhole⟩ := exists_joined?_of_mem (List.mem_append_left
      (blocksOf block.identifier [r] ++ blocksOf block.identifier after) hbefore)
    obtain ⟨whole', hwhole'⟩ :=
      exists_joined?_of_mem (List.mem_append_left (blocksOf block.identifier after) hbefore)
    rw [hwhole, hwhole'] at hget
    exact holdsNothing_of_joined? hwhole hwhole' (Option.some.inj hget) _ hagain
  · rintro ⟨hlatest, hnothing⟩
    have hbuild := (ModuleTable.build_eq_iff (latest_eq_iff.mp hlatest)).mpr fun h =>
      sameHoisted_repeat hmem (hnothing h)
    simp only [ofResources, hbuild]

end Snapshot

/-! ## Paths that are listed again -/

theorem repeat_subset {α : Type} {before after : List α} {item : α} (hmem : item ∈ before) :
    before ++ item :: after ⊆ before ++ after := by
  intro other hother
  rcases List.mem_append.mp hother with hother | hother
  · exact List.mem_append_left _ hother
  · rcases List.mem_cons.mp hother with rfl | hother
    · exact List.mem_append_left _ hmem
    · exact List.mem_append_right _ hother

/-- A stage that has been through an item fails with it again as it fails without. -/
theorem mapM_repeat {ε α β : Type} {f : α → Except ε β} {before after : List α} {item : α}
    (hmem : item ∈ before) {failure : ε} (h : (before ++ after).mapM f = .error failure) :
    (before ++ item :: after).mapM f = .error failure := by
  rw [List.mapM_append] at h ⊢
  cases hbefore : before.mapM f with
  | error e => simpa [hbefore, bind, Except.bind] using h
  | ok results =>
      cases hitem : f item with
      | error e =>
          obtain ⟨_, _, e', _, hfails⟩ := exists_mem_of_mapM_error hmem hitem
          rw [hfails] at hbefore
          cases hbefore
      | ok result =>
          cases hafter : after.mapM f with
          | error e => simpa [hbefore, hitem, hafter, bind, Except.bind] using h
          | ok others => simp [hbefore, hafter, bind, Except.bind, pure, Except.pure] at h

namespace Config

variable {config : Config} {reader : Reader} {before after : List Path} {path : Path}

/-- A build that fails without a path that is listed again fails with it, in the same way. -/
theorem snapshot_repeat_of_error (hmem : path ∈ before) {error : BuildError}
    (h : config.snapshot reader (before ++ after) = .error error) :
    config.snapshot reader (before ++ path :: after) = .error error := by
  rcases Nat.lt_or_ge readLimit config.maxConcurrentReads with hlimit | hlimit
  · rwa [snapshot_of_lt hlimit] at h ⊢
  by_cases hreadable : ∀ other ∈ before ++ after, ¬ reader.Unreadable other
  · have hagain : ∀ other ∈ before ++ path :: after, ¬ reader.Unreadable other :=
      fun other hother => hreadable other (repeat_subset hmem hother)
    rw [snapshot_of_readable hlimit hreadable] at h
    rw [snapshot_of_readable hlimit hagain]
    cases hparse : (before ++ after).mapM fun path =>
        (reader.documentAt path).parse config.parser path config.root with
    | ok results => simp [hparse, Except.mapError, Except.map] at h
    | error e =>
        rw [mapM_repeat hmem hparse]
        rwa [hparse] at h
  · push Not at hreadable
    obtain ⟨other, hother, hunreadable⟩ := hreadable
    obtain ⟨_, _, _, _, hread⟩ := Reader.mapM_readPath_of_unreadable hother hunreadable
    rw [snapshot_of_read_error hlimit hread] at h
    rwa [snapshot_of_read_error hlimit (mapM_repeat hmem hread)]

/-- Listing a path again changes nothing exactly if the build fails anyway or nothing comes again. -/
theorem snapshot_repeat_iff (hmem : path ∈ before) :
    config.snapshot reader (before ++ path :: after) = config.snapshot reader (before ++ after) ↔
      ∀ s, config.snapshot reader (before ++ after) = .ok s →
        ModuleSources.NothingAgain config.hoistsAmbientModules (before.map (config.resourceOf reader))
          (config.resourceOf reader path) (after.map (config.resourceOf reader)) := by
  have hresource : config.resourceOf reader path ∈ before.map (config.resourceOf reader) :=
    List.mem_map_of_mem hmem
  constructor
  · intro h s hs
    have htwice := (snapshot_eq_ok_iff.mp (h.trans hs)).2.2
    rw [(snapshot_eq_ok_iff.mp hs).2.2, List.map_append, List.map_append, List.map_cons] at htwice
    exact (Snapshot.ofResources_repeat_iff hresource).mp htwice.symm
  · intro h
    cases hs : config.snapshot reader (before ++ after) with
    | error error => exact snapshot_repeat_of_error hmem hs
    | ok s =>
        have hsame := (Snapshot.ofResources_repeat_iff hresource).mpr (h s hs)
        obtain ⟨hlimit, hpaths, rfl⟩ := snapshot_eq_ok_iff.mp hs
        refine snapshot_eq_ok_iff.mpr
          ⟨hlimit, fun other hother => hpaths other (repeat_subset hmem hother), ?_⟩
        rw [List.map_append, List.map_append, List.map_cons, hsame]

end Config

namespace ModuleTable

open ModuleSources

/-- Leaving out all but the last of the files with one key makes the same table exactly if the blocks
that are left make the same modules. That is so without hoisting, and where no file that shares its key
has blocks. Listing a path again leaves the snapshot as it is exactly if nothing comes again. -/
theorem build_latest_iff (hoists : Bool) (resources : List Resource) (config : Config)
    (reader : Reader) (before after : List Path) :
    (build hoists (latest resources) = build hoists resources ↔
      (hoists = true → SameHoisted (latest resources) resources)) ∧
    ((∀ before r after, resources = before ++ r :: after →
        (∃ other ∈ before ++ after, other.identifier = r.identifier) → r.moduleBlocks = []) →
      build hoists (latest resources) = build hoists resources) ∧
    ∀ path ∈ before,
      (config.snapshot reader (before ++ path :: after) = config.snapshot reader (before ++ after) ↔
        ∀ s, config.snapshot reader (before ++ after) = .ok s →
          NothingAgain config.hoistsAmbientModules (before.map (config.resourceOf reader))
            (config.resourceOf reader path) (after.map (config.resourceOf reader))) :=
  ⟨build_eq_iff (filesOf_latest resources), build_latest_of_blocks,
    fun _ hmem => Config.snapshot_repeat_iff hmem⟩

/-- A declaration file with a block `declare module "x" { const p }`. -/
def oneBlockFile : Resource :=
  { workspaceFile "a.d" [] [] [] with resources := [constantsBlock ["p"] false] }

/-- A declaration file that is listed twice declares what is in its block twice. -/
theorem build_latest_ne_oneBlockFile :
    build true (latest [oneBlockFile, oneBlockFile]) ≠ build true [oneBlockFile, oneBlockFile] ∧
    Snapshot.ofResources true [oneBlockFile, oneBlockFile] ≠
      Snapshot.ofResources true [oneBlockFile] := by
  constructor
  · intro h
    have hcount := congrArg (fun table : ModuleTable =>
      (table.get? "x").map (·.resource.declarations.length)) h
    revert hcount
    decide +kernel
  · intro h
    have hcount := congrArg (fun s : Snapshot =>
      (s.resource? "x").map (·.declarations.length)) h
    revert hcount
    decide +kernel

end ModuleTable

end ExportIndex
