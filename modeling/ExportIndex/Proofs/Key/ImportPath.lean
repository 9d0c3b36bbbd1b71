import ExportIndex.Proofs.Key.SourcePath
import ExportIndex.Proofs.Snapshot.Provenance

/-!
# Import paths

The import path of an entry is the key of its provider without a final `/index`. As a specifier it leads
back to the provider if it spells itself and no other module has it as its key.
-/

namespace ExportIndex

/-- A text that spells itself as a specifier, whichever module it is seen from: the name of a library,
or an absolute path that is normalized and does not end like a source file. -/
def SpellsItself (specifier : String) : Prop :=
  isPathSpecifier specifier = true →
    specifier.toList.head? = some '/' ∧
      stripSourceExtension (normalizeModulePath specifier) = specifier

theorem specifiedKey_of_absolute {specifier : String} (h : specifier.toList.head? = some '/')
    (fromModule : ModuleKey) :
    specifiedKey fromModule specifier = stripSourceExtension (normalizeModulePath specifier) := by
  have hpath : isPathSpecifier specifier = true := by simp [isPathSpecifier, h]
  rw [specifiedKey, if_pos hpath]
  simp only [if_pos h]

theorem SpellsItself.specifiedKey_eq {specifier : String} (h : SpellsItself specifier)
    (fromModule : ModuleKey) : specifiedKey fromModule specifier = specifier := by
  cases hpath : isPathSpecifier specifier with
  | false => exact specifiedKey_of_bare hpath fromModule
  | true =>
      obtain ⟨habsolute, hnormal⟩ := h hpath
      rw [specifiedKey_of_absolute habsolute, hnormal]

/-- What a key and its import path have to do with each other. -/
theorem importPath_cases (key : ModuleKey) :
    importPath key = key ∧ ¬ "/index".toList <:+ key.toList ∨
      key = "/index" ∧ importPath key = "/" ∨ key = importPath key ++ "/index" := by
  unfold importPath
  cases hending : Text.beforeEnding? "/index".toList key.toList with
  | none => exact .inl ⟨rfl, Text.beforeEnding?_eq_none_iff.mp hending⟩
  | some before =>
      have hkey := Text.beforeEnding?_eq_some_iff.mp hending
      cases before with
      | nil => exact .inr (.inl ⟨String.toList_inj.mp hkey, rfl⟩)
      | cons c before => exact .inr (.inr (String.toList_inj.mp (by simp [hkey])))

theorem importPath_of_ne {name : String} (h : '/' ∉ name.toList) (hne : name ≠ "index")
    (before : String) : importPath (before ++ "/" ++ name) = before ++ "/" ++ name := by
  rw [importPath, beforeEnding?_index h, if_neg hne]

theorem importPath_index {before : String} (h : before ≠ "") :
    importPath (before ++ "/" ++ "index") = before := by
  rw [importPath, beforeEnding?_index (by decide), if_pos rfl]
  cases hchars : before.toList with
  | nil => exact absurd (String.toList_eq_nil_iff.mp hchars) h
  | cons c rest => exact String.toList_inj.mp (by simp [hchars])

/-- A relative specifier leads from the root to an absolute key. -/
theorem head?_specifiedKey_of_relative {specifier : String} (h : IsRelative specifier) :
    (specifiedKey "/" specifier).toList.head? = some '/' := by
  have hnormal : (normalizeModulePath (moduleDirectory "/" ++ "/" ++ specifier)).toList.head? =
      some '/' := by
    have hhead : (moduleDirectory "/" ++ "/" ++ specifier).toList.head? = some '/' := by
      rw [toList_append_slash]
      rfl
    rw [normalizeModulePath, normalizePathChars, if_pos hhead, String.toList_ofList, List.head?_cons]
  rw [specifiedKey, if_pos h.1]
  simp only [if_neg h.2]
  exact head?_stripSourceExtension hnormal

theorem not_resolves_of_relative {key : ModuleKey} (h : IsRelative (importPath key))
    (isKnown : ModuleKey → Bool) :
    resolveSpecifier? isKnown "/" (importPath key) ≠ some key := by
  intro hresolve
  have hspecified := head?_specifiedKey_of_relative h
  have hkey : key.toList.head? ≠ some '/' := by
    have hne : importPath key ≠ "" := by
      intro hempty
      have hpath := h.1
      rw [hempty] at hpath
      exact absurd hpath (by decide)
    rcases importPath_cases key with ⟨hsame, -⟩ | ⟨-, hroot⟩ | hbelow
    · exact hsame ▸ h.2
    · exact absurd (by rw [hroot]; rfl) h.2
    · rw [hbelow, String.toList_append, List.head?_append_of_ne_nil _ (by simpa using hne)]
      exact h.2
  rcases (resolveSpecifier?_eq_some_iff.mp hresolve).2 with hsame | ⟨-, hbelow⟩
  · exact hkey (hsame ▸ hspecified)
  · rw [← hbelow, indexKey] at hkey
    split at hkey <;> simp [hspecified] at hkey

/-- If an absolute import path leads back, it is normalized and does not end like a source file. -/
theorem specifiedKey_eq_importPath {key : ModuleKey}
    (habsolute : (importPath key).toList.head? = some '/') {fromModule : ModuleKey}
    (h : specifiedKey fromModule (importPath key) = key ∨
      indexKey (specifiedKey fromModule (importPath key)) = key) :
    specifiedKey fromModule (importPath key) = importPath key := by
  rw [specifiedKey_of_absolute habsolute] at h ⊢
  have hlength := (length_stripSourceExtension_le (normalizeModulePath (importPath key))).trans
    (length_normalizeModulePath_le habsolute)
  rcases importPath_cases key with ⟨hsame, hends⟩ | ⟨-, hroot⟩ | hbelow
  · rcases h with heq | heq
    · exact heq.trans hsame.symm
    · obtain ⟨before, hbefore⟩ := exists_indexKey_eq
        (stripSourceExtension (normalizeModulePath (importPath key)))
      refine absurd ?_ hends
      rw [← heq, hbefore, toList_append_slash]
      exact List.suffix_append _ _
  · rw [hroot]
    decide
  · -- a text that is no longer than the import path is not the key, and only the import path is
    -- followed by `/index` in the key
    generalize stripSourceExtension (normalizeModulePath (importPath key)) = spelled at h hlength ⊢
    have hindex : "/index".length = 6 ∧ "index".length = 5 := by decide
    have hkey := congrArg String.length hbelow
    rw [String.length_append] at hkey
    rcases h with heq | heq
    · have hspelled := congrArg String.length heq
      omega
    · rw [indexKey] at heq
      split at heq
      · have hspelled := congrArg String.length heq
        rw [String.length_append] at hspelled
        omega
      · exact (String.append_left_inj "/index").mp (heq.trans hbelow)

/-- An import path leads back from everywhere exactly if it spells itself, and is the key of the module
or else the key of no module. -/
theorem resolves_importPath_iff {isKnown : ModuleKey → Bool} {key : ModuleKey}
    (hknown : isKnown key = true) :
    (∀ fromModule, resolveSpecifier? isKnown fromModule (importPath key) = some key) ↔
      SpellsItself (importPath key) ∧ (importPath key = key ∨
        isKnown (importPath key) = false ∧ indexKey (importPath key) = key) := by
  constructor
  · intro hresolves
    have hcandidate : ∀ fromModule, specifiedKey fromModule (importPath key) = key ∨
        indexKey (specifiedKey fromModule (importPath key)) = key := fun fromModule =>
      (resolveSpecifier?_eq_some_iff.mp (hresolves fromModule)).2.imp_right And.right
    have hspells : SpellsItself (importPath key) := by
      intro hpath
      by_cases habsolute : (importPath key).toList.head? = some '/'
      · have hsame := specifiedKey_eq_importPath habsolute (hcandidate key)
        rw [specifiedKey_of_absolute habsolute] at hsame
        exact ⟨habsolute, hsame⟩
      · exact absurd (hresolves "/") (not_resolves_of_relative ⟨hpath, habsolute⟩ isKnown)
    refine ⟨hspells, ?_⟩
    have hfound := (resolveSpecifier?_eq_some_iff.mp (hresolves key)).2
    rwa [hspells.specifiedKey_eq] at hfound
  · rintro ⟨hspells, hfound⟩ fromModule
    rw [resolveSpecifier?_eq_some_iff, hspells.specifiedKey_eq]
    exact ⟨hknown, hfound⟩

/-! ## Project files -/

/-- An absolute path of plain segments is normalized. -/
theorem normalizeModulePath_of_plain {segments : List String}
    (h : ∀ segment ∈ segments, PlainSegment segment) :
    normalizeModulePath ("/" ++ "/".intercalate segments) = "/" ++ "/".intercalate segments := by
  have hhead : ("/" ++ "/".intercalate segments).toList.head? = some '/' := by simp
  rw [normalizeModulePath, normalizePathChars, if_pos hhead, walkedSegments,
    foldl_walkSegment_absolute h]
  exact String.toList_inj.mp (by simp)

/-- The text of plain segments after a slash spells itself unless it ends like a source file. -/
theorem spellsItself_iff {segments : List String} (h : ∀ segment ∈ segments, PlainSegment segment) :
    SpellsItself ("/" ++ "/".intercalate segments) ↔
      ∀ last ∈ segments.getLast?, ∀ ext ∈ sourceExtensions, ¬ ext.toList <:+ last.toList := by
  have hhead : ("/" ++ "/".intercalate segments).toList.head? = some '/' := by simp
  have hpath : isPathSpecifier ("/" ++ "/".intercalate segments) = true := by
    simp [isPathSpecifier]
  have hspells : SpellsItself ("/" ++ "/".intercalate segments) ↔
      stripSourceExtension ("/" ++ "/".intercalate segments) = "/" ++ "/".intercalate segments := by
    rw [SpellsItself, normalizeModulePath_of_plain h]
    exact ⟨fun hself => (hself hpath).2, fun hself _ => ⟨hhead, hself⟩⟩
  rw [hspells]
  obtain rfl | ⟨parents, last, rfl⟩ := List.eq_nil_or_concat' segments
  · simp only [List.getLast?_nil, Option.mem_def, reduceCtorEq, false_implies, implies_true,
      iff_true]
    decide
  · rw [← intercalate_empty_cons (by simp), ← List.cons_append, stripSourceExtension_intercalate,
      intercalate_concat (List.cons_ne_nil _ _), intercalate_concat (List.cons_ne_nil _ _),
      String.append_right_inj, stripSourceExtension_eq_self_iff]
    simp

namespace SourcePath

variable (file : SourcePath)

theorem projectKey_segments :
    projectKey file.segments = "/".intercalate ("" :: file.directories) ++ "/" ++ file.stem := by
  have hne : file.directories ++ [file.stem] ≠ [] :=
    List.append_ne_nil_of_right_ne_nil _ (List.cons_ne_nil _ _)
  rw [projectKey, segments, stripSourceExtension_intercalate,
    stripSourceExtension_append file.extension_mem file.longest, ← intercalate_empty_cons hne,
    ← List.cons_append, intercalate_concat (List.cons_ne_nil _ _)]

theorem importPath_projectKey :
    importPath (projectKey file.segments) = "/" ++ "/".intercalate file.importSegments := by
  rw [projectKey_segments, importSegments]
  by_cases hindex : file.stem = "index"
  · rw [if_pos hindex, hindex]
    by_cases hdirectories : file.directories = []
    · rw [hdirectories]
      decide
    · rw [intercalate_empty_cons hdirectories, importPath_index (by simp)]
  · have hne : file.directories ++ [file.stem] ≠ [] :=
      List.append_ne_nil_of_right_ne_nil _ (List.cons_ne_nil _ _)
    rw [if_neg hindex, importPath_of_ne file.slash_notMem_stem hindex, ← intercalate_empty_cons hne,
      ← List.cons_append, intercalate_concat (List.cons_ne_nil _ _)]

theorem indexKey_importPath_projectKey (hindex : file.stem = "index") :
    indexKey (importPath (projectKey file.segments)) = projectKey file.segments := by
  rw [importPath_projectKey, projectKey_segments, importSegments, if_pos hindex, hindex]
  obtain hdirectories | ⟨parents, last, hdirectories⟩ := List.eq_nil_or_concat' file.directories
  · rw [hdirectories]
    decide
  · have hlast : PlainSegment last := file.plain last (by simp [hdirectories])
    have hne : file.directories ≠ [] := by simp [hdirectories]
    rw [← intercalate_empty_cons hne, hdirectories, ← List.cons_append,
      indexKey_intercalate hlast.ne_empty hlast.slash_notMem, intercalate_concat (by simp)]

end SourcePath

/-- The import path of a project file leads back from everywhere exactly if it does not end like a source
file and, for an `index` file, no other module has the directory as its key. -/
theorem resolves_importPath_projectKey_iff {file : SourcePath} (hstem : PlainSegment file.stem)
    {isKnown : ModuleKey → Bool} (hknown : isKnown (projectKey file.segments) = true) :
    (∀ fromModule, resolveSpecifier? isKnown fromModule (importPath (projectKey file.segments)) =
        some (projectKey file.segments)) ↔
      (∀ last ∈ file.importSegments.getLast?, ∀ ext ∈ sourceExtensions,
        ¬ ext.toList <:+ last.toList) ∧
      (file.stem = "index" → isKnown (importPath (projectKey file.segments)) = false) := by
  have hplain : ∀ segment ∈ file.importSegments, PlainSegment segment := by
    unfold SourcePath.importSegments
    split
    · exact file.plain
    · exact List.forall_mem_append.mpr ⟨file.plain, by simpa using hstem⟩
  rw [resolves_importPath_iff hknown, ← spellsItself_iff hplain, ← file.importPath_projectKey]
  refine and_congr_right fun _ => ?_
  by_cases hindex : file.stem = "index"
  · have hbelow := file.indexKey_importPath_projectKey hindex
    have hne : importPath (projectKey file.segments) ≠ projectKey file.segments := by
      intro hsame
      exact indexKey_ne_self _ (hsame ▸ hbelow)
    simp [hindex, hbelow, hne]
  · have hsame : importPath (projectKey file.segments) = projectKey file.segments := by
      rw [file.projectKey_segments, importPath_of_ne file.slash_notMem_stem hindex]
    simp [hindex, hsame]

/-! ## Entries of snapshots -/

namespace Snapshot

/-- An entry of the index or of the defaults. -/
def HasEntry (s : Snapshot) (info : DeclarationInfo) : Prop :=
  (∃ name, info ∈ s.lookup name) ∨ ∃ key, s.default? key = some info

/-- The import path of an entry, as a specifier among the modules of a snapshot, leads from everywhere to
the module that provides the entry. -/
def LeadsBack (s : Snapshot) (info : DeclarationInfo) : Prop :=
  ∀ fromModule,
    resolveSpecifier? s.resources.contains fromModule info.importPath = some info.provider

theorem provider_of_wholeInfo? {entry : ModuleEntry} {name : String} {info : DeclarationInfo}
    (h : ModuleTable.wholeInfo? entry = some (name, info)) : info.provider = entry.key := by
  unfold ModuleTable.wholeInfo? at h
  split at h
  next declaration origin _ _ =>
    obtain ⟨found, -, heq⟩ := Option.map_eq_some_iff.mp h
    rw [← (Prod.mk.inj heq).2]
  next => simp at h

variable {table : ModuleTable} {info : DeclarationInfo}

/-- The provider of an entry is a module of the snapshot. -/
theorem HasEntry.provider_mem (h : (assemble table table.resolve).HasEntry info) :
    info.provider ∈ table.keys := by
  rcases h with ⟨name, hlookup⟩ | ⟨key, hdefault⟩
  · rcases mem_lookup_assemble hlookup with ⟨key, surface, hentry, hnamed⟩ | ⟨entry, hentry, hwhole⟩
    · obtain ⟨binding, -, hinfo⟩ := ModuleTable.mem_namedInfos_iff.mp hnamed
      rw [(ModuleTable.info?_eq_some hinfo).2.1]
      exact ModuleTable.mem_keys_of_mem_resolve hentry
    · obtain ⟨key, hget⟩ := ModuleTable.mem_entries_iff.mp hentry
      rw [provider_of_wholeInfo? hwhole, ModuleTable.key_of_get? hget]
      exact Registry.mem_keys_iff.mpr ⟨entry, hget⟩
  · obtain ⟨surface, binding, hentry, -, hinfo⟩ := default?_assemble hdefault
    rw [(ModuleTable.info?_eq_some hinfo).2.1]
    exact ModuleTable.mem_keys_of_mem_resolve hentry

/-- An import path leads back exactly if it spells itself, and is the key of the provider or else that of
no module, the provider being the `index` module below it. For an entry that a project file provides, this
says that the import path does not end like a source file and, for an `index` file, that no module has the
directory as its key. -/
theorem importPath_leadsBack_iff {hoists : Bool} {resources : List Resource}
    (h : (ofResources hoists resources).HasEntry info) :
    ((ofResources hoists resources).LeadsBack info ↔
      SpellsItself info.importPath ∧ (info.importPath = info.provider ∨
        (ofResources hoists resources).resources.contains info.importPath = false ∧
          indexKey info.importPath = info.provider)) ∧
    ∀ file : SourcePath, PlainSegment file.stem → info.provider = projectKey file.segments →
      ((ofResources hoists resources).LeadsBack info ↔
        (∀ last ∈ file.importSegments.getLast?, ∀ ext ∈ sourceExtensions,
          ¬ ext.toList <:+ last.toList) ∧
        (file.stem = "index" →
          (ofResources hoists resources).resources.contains info.importPath = false)) := by
  have hknown : (ofResources hoists resources).resources.contains info.provider = true := by
    rw [Registry.contains_iff]
    have hmem := HasEntry.provider_mem h
    simpa [ofResources, assemble, ModuleTable.keys] using hmem
  constructor
  · exact resolves_importPath_iff hknown
  · intro file hstem hprovider
    unfold LeadsBack DeclarationInfo.importPath
    rw [hprovider] at hknown ⊢
    exact resolves_importPath_projectKey_iff hstem hknown

/-- A file of the directory `lib` that is imported by the name of the directory. -/
def libIndexFile : Resource :=
  ModuleTable.workspaceFile "lib/index" [ModuleTable.exportedConstant "b"] [] []

theorem importPath_libIndex :
    ∃ info ∈ (ofResources false [libIndexFile]).lookup "b", info.provider = "/lib/index" ∧
      info.importPath = "/lib" ∧
      ∀ fromModule, resolveSpecifier? (ofResources false [libIndexFile]).resources.contains
        fromModule "/lib" = some "/lib/index" := by
  have hlisted : ∃ info ∈ (ofResources false [libIndexFile]).lookup "b",
      info.provider = "/lib/index" ∧ info.importPath = "/lib" := by
    decide +kernel
  obtain ⟨info, hinfo, hprovider, hpath⟩ := hlisted
  have hback := (importPath_leadsBack_iff (.inl ⟨"b", hinfo⟩)).1
  rw [LeadsBack, hprovider, hpath] at hback
  have hspells : SpellsItself "/lib" := fun _ => ⟨by decide, by decide⟩
  have hunknown : (ofResources false [libIndexFile]).resources.contains "/lib" = false := by
    decide +kernel
  exact ⟨info, hinfo, hprovider, hpath, hback.mpr ⟨hspells, .inr ⟨hunknown, by decide⟩⟩⟩

/-- Beside a file `lib`, the import path of an item of `lib/index` leads to the file. -/
theorem importPath_libIndex_beside :
    ∃ info ∈ (ofResources false
        [ModuleTable.workspaceFile "lib" [] [] [], libIndexFile]).lookup "b",
      info.provider = "/lib/index" ∧ info.importPath = "/lib" ∧
      resolveSpecifier? (ofResources false
        [ModuleTable.workspaceFile "lib" [] [] [], libIndexFile]).resources.contains
          "/lib/index" info.importPath = some "/lib" := by
  decide +kernel

end Snapshot

end ExportIndex
