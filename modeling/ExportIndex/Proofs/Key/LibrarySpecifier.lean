import ExportIndex.Proofs.Key.Library

/-!
# Relative specifiers inside a package

The directory of a library file is read off its key. An `index` file has lost its own segment there,
so that the directory found is too high, unless the key is a single segment. And the key of an `index`
file is not what a specifier that spells `index` leads to.
-/

namespace ExportIndex

/-- The directory of a file can be read off its key. -/
def Package.KeepsDirectory (package : Package) (file : SourcePath) : Prop :=
  file.stem ≠ "index" ∨ file.directories = [] ∧ package.keySegments.length = 1

theorem moduleDirectory_intercalate {directories : List String} {name : String}
    (h : ∀ directory ∈ directories, PlainSegment directory) (hne : directories ≠ [])
    (hname : '/' ∉ name.toList) :
    moduleDirectory ("/".intercalate (directories ++ [name])) = "/".intercalate directories := by
  have hempty : "/".intercalate directories ≠ "" := by
    rw [Ne, intercalate_eq_iff (slashFree_of_plain h) hne (by simp)]
    rintro rfl
    exact (h "" List.mem_cons_self).ne_empty rfl
  rw [intercalate_concat hne, moduleDirectory_append_slash hempty hname]

/-- The directory in which the relative specifiers of a package file are looked up. -/
structure SearchedFrom (package : Package) (file : SourcePath) (searched : List String) : Prop where
  ne_nil : searched ≠ []
  plain : ∀ segment ∈ searched, PlainSegment segment
  moduleDirectory_eq :
    moduleDirectory ("/".intercalate (package.keySegments ++ file.keySegments)) =
      "/".intercalate searched
  /-- It lies deep enough for every step up inside the package. -/
  deep : file.directories.length ≤ searched.length
  exact : package.KeepsDirectory file → searched = package.keySegments ++ file.directories
  short : ¬ package.KeepsDirectory file →
    searched.length < package.keySegments.length + file.directories.length

theorem SourcePath.keySegments_of_ne {file : SourcePath} (h : file.stem ≠ "index") :
    file.keySegments = file.directories ++ [file.stem] := by
  have hnot : ¬ file.IsIndexOfIndex := fun hindex => h hindex.1
  rw [keySegments, if_neg hnot, importSegments, if_neg h]

theorem SourcePath.keySegments_of_index {file : SourcePath} (h : file.stem = "index") :
    file.keySegments = file.directories ∨
      file.keySegments = [] ∧ file.directories = ["index"] := by
  unfold keySegments
  split
  next hindex => exact .inr ⟨rfl, hindex.2⟩
  next => exact .inl (if_pos h)

theorem SourcePath.length_keySegments_of_index {file : SourcePath} (h : file.stem = "index") :
    file.keySegments.length = file.directories.length ∨
      file.keySegments.length = 0 ∧ file.directories.length = 1 := by
  rcases keySegments_of_index h with heq | ⟨hempty, hindex⟩
  · exact .inl (congrArg List.length heq)
  · exact .inr ⟨congrArg List.length hempty, congrArg List.length hindex⟩

theorem SourcePath.plain_keySegments_of_index {file : SourcePath} (h : file.stem = "index") :
    ∀ segment ∈ file.keySegments, PlainSegment segment := by
  rcases keySegments_of_index h with heq | ⟨hempty, -⟩
  · exact heq ▸ file.plain
  · simp [hempty]

theorem Package.keepsDirectory_of_index_iff {package : Package} {file : SourcePath}
    (h : file.stem = "index") : package.KeepsDirectory file ↔
      file.directories = [] ∧ package.keySegments.length = 1 := by
  simp [KeepsDirectory, h]

section Package

variable {package : Package} (hplain : ∀ segment ∈ package.keySegments, PlainSegment segment)

include hplain

theorem searchedFrom_of_ne {file : SourcePath} (h : file.stem ≠ "index") :
    SearchedFrom package file (package.keySegments ++ file.directories) where
  ne_nil := List.append_ne_nil_of_left_ne_nil Package.keySegments_ne_nil _
  plain := List.forall_mem_append.mpr ⟨hplain, file.plain⟩
  moduleDirectory_eq := by
    rw [SourcePath.keySegments_of_ne h, ← List.append_assoc]
    exact moduleDirectory_intercalate (List.forall_mem_append.mpr ⟨hplain, file.plain⟩)
      (List.append_ne_nil_of_left_ne_nil Package.keySegments_ne_nil _) file.slash_notMem_stem
  deep := by simp
  exact _ := rfl
  short hloses := absurd (.inl h) hloses

/-- An `index` file whose key is a single segment: the key is its own directory. -/
theorem searchedFrom_of_single {file : SourcePath} (h : file.stem = "index") {only : String}
    (hsegments : package.keySegments ++ file.keySegments = [only]) :
    SearchedFrom package file package.keySegments := by
  have hcount := congrArg List.length hsegments
  rw [List.length_append, List.length_singleton] at hcount
  have hpackage : 0 < package.keySegments.length :=
    List.length_pos_iff.mpr Package.keySegments_ne_nil
  have hlength := SourcePath.length_keySegments_of_index h
  have hempty : file.keySegments = [] := List.length_eq_zero_iff.mp (by omega)
  rw [hempty, List.append_nil] at hsegments
  have honly : PlainSegment only := hplain only (hsegments ▸ List.mem_cons_self)
  refine ⟨Package.keySegments_ne_nil, hplain, ?_, by omega, ?_, ?_⟩
  · rw [hempty, List.append_nil, hsegments, String.intercalate_singleton,
      moduleDirectory_of_notMem honly.slash_notMem]
  · intro hkeeps
    rw [((Package.keepsDirectory_of_index_iff h).mp hkeeps).1, List.append_nil]
  · intro hloses
    have hne : file.directories.length ≠ 0 := fun hzero =>
      hloses ((Package.keepsDirectory_of_index_iff h).mpr
        ⟨List.length_eq_zero_iff.mp hzero, by omega⟩)
    omega

/-- An `index` file whose key has several segments: the last of them is taken away once more. -/
theorem searchedFrom_of_several {file : SourcePath} (h : file.stem = "index")
    {parents : List String} {last : String} (hparents : parents ≠ [])
    (hsegments : package.keySegments ++ file.keySegments = parents ++ [last]) :
    SearchedFrom package file parents := by
  have hall : ∀ segment ∈ parents ++ [last], PlainSegment segment := hsegments ▸
    List.forall_mem_append.mpr ⟨hplain, SourcePath.plain_keySegments_of_index h⟩
  rw [List.forall_mem_append] at hall
  have hcount := congrArg List.length hsegments
  rw [List.length_append, List.length_append, List.length_singleton] at hcount
  have hparent : 0 < parents.length := List.length_pos_iff.mpr hparents
  have hpackage : 0 < package.keySegments.length :=
    List.length_pos_iff.mpr Package.keySegments_ne_nil
  have hlength := SourcePath.length_keySegments_of_index h
  refine ⟨hparents, hall.1, ?_, by omega, ?_, by omega⟩
  · rw [hsegments, moduleDirectory_intercalate hall.1 hparents
      (hall.2 last List.mem_cons_self).slash_notMem]
  · intro hkeeps
    obtain ⟨hdirectories, hone⟩ := (Package.keepsDirectory_of_index_iff h).mp hkeeps
    rw [hdirectories, List.length_nil] at hlength
    omega

theorem exists_searchedFrom (file : SourcePath) :
    ∃ searched, SearchedFrom package file searched := by
  by_cases h : file.stem = "index"
  · obtain hnil | ⟨parents, last, hsegments⟩ :=
      List.eq_nil_or_concat' (package.keySegments ++ file.keySegments)
    · exact absurd (List.append_eq_nil_iff.mp hnil).1 Package.keySegments_ne_nil
    · by_cases hparents : parents = []
      · subst hparents
        exact ⟨_, searchedFrom_of_single hplain h hsegments⟩
      · exact ⟨_, searchedFrom_of_several hplain h hparents hsegments⟩
  · exact ⟨_, searchedFrom_of_ne hplain h⟩

end Package

namespace SearchedFrom

variable {package : Package} {file : SourcePath} {searched there : List String} {specifier : String}
  (h : SearchedFrom package file searched) (hrelative : IsRelative specifier)

include h hrelative

theorem specifiedKey_eq :
    specifiedKey ("/".intercalate (package.keySegments ++ file.keySegments)) specifier =
      stripSourceExtension ("/".intercalate (walkFrom searched specifier)) := by
  rw [specifiedKey, if_pos hrelative.1]
  simp only [if_neg hrelative.2]
  rw [h.moduleDirectory_eq, normalizeModulePath_append h.plain h.ne_nil]

/-- The key that a specifier spells is as much deeper than its target as the search starts deeper than
the directory of the file. -/
theorem exists_specifiedKey_eq (hleads : Leads file.directories specifier there)
    (hthere : there ≠ []) :
    ∃ reached, SlashFree reached ∧ reached ≠ [] ∧
      reached.length + file.directories.length = searched.length + there.length ∧
      specifiedKey ("/".intercalate (package.keySegments ++ file.keySegments)) specifier =
        "/".intercalate reached := by
  have hlength := length_walkFrom hleads h.deep
  have hfree := slashFree_walkFrom (slashFree_of_plain h.plain) specifier
  rw [h.specifiedKey_eq hrelative]
  obtain hnil | ⟨parents, last, hwalk⟩ := List.eq_nil_or_concat' (walkFrom searched specifier)
  · have hpos : 0 < there.length := List.length_pos_iff.mpr hthere
    have hdeep := h.deep
    rw [hnil, List.length_nil] at hlength
    omega
  · rw [hwalk] at hlength hfree ⊢
    rw [slashFree_append, slashFree_singleton] at hfree
    refine ⟨parents ++ [stripSourceExtension last], ?_, by simp, ?_,
      stripSourceExtension_intercalate parents last⟩
    · exact slashFree_append.mpr
        ⟨hfree.1, slashFree_singleton.mpr (slash_notMem_stripSourceExtension hfree.2)⟩
    · simpa using hlength

end SearchedFrom

/-- Seen from a file whose directory its key keeps, a specifier spells the place of its target without
the extension. -/
theorem specifiedKey_of_keepsDirectory {package : Package} {source target : SourcePath}
    {searched : List String} {specifier : String} (h : SearchedFrom package source searched)
    (hkeeps : package.KeepsDirectory source) (hrelative : IsRelative specifier)
    (hleads : Leads source.directories specifier target.segments) :
    specifiedKey ("/".intercalate (package.keySegments ++ source.keySegments)) specifier =
      "/".intercalate (package.keySegments ++ target.directories ++ [target.stem]) := by
  rw [h.specifiedKey_eq hrelative, h.exact hkeeps, walkFrom_of_leads hleads, SourcePath.segments,
    ← List.append_assoc, stripSourceExtension_intercalate,
    stripSourceExtension_append target.extension_mem target.longest]

section Resolution

variable {package : Package} {source target : SourcePath} {searched : List String}
  {specifier : String} (hplain : ∀ segment ∈ package.keySegments, PlainSegment segment)
  (hsearched : SearchedFrom package source searched) (hrelative : IsRelative specifier)
  (hleads : Leads source.directories specifier target.segments)

include hplain hsearched hrelative hleads

/-- A specifier that spells `index` leads to the key of no `index` file. -/
theorem not_resolves_of_index (hkeeps : package.KeepsDirectory source)
    (hindex : target.stem = "index") (isKnown : ModuleKey → Bool) :
    resolveSpecifier? isKnown ("/".intercalate (package.keySegments ++ source.keySegments))
        specifier ≠
      some ("/".intercalate (package.keySegments ++ target.keySegments)) := by
  intro hresolve
  have hspecified := specifiedKey_of_keepsDirectory hsearched hkeeps hrelative hleads
  rw [hindex] at hspecified
  have htarget : SlashFree (package.keySegments ++ target.keySegments) :=
    slashFree_append.mpr ⟨slashFree_of_plain hplain, target.slashFree_keySegments⟩
  have hspelled : SlashFree (package.keySegments ++ target.directories ++ ["index"]) :=
    slashFree_append.mpr
      ⟨slashFree_of_plain (List.forall_mem_append.mpr ⟨hplain, target.plain⟩),
        slashFree_singleton.mpr (by decide)⟩
  have hbelow : SlashFree (package.keySegments ++ target.directories ++ ["index"] ++ ["index"]) :=
    slashFree_append.mpr ⟨hspelled, slashFree_singleton.mpr (by decide)⟩
  have hne : package.keySegments ++ target.keySegments ≠ [] :=
    List.append_ne_nil_of_left_ne_nil Package.keySegments_ne_nil _
  have hlength := SourcePath.length_keySegments_of_index hindex
  -- the key of the target has fewer segments than either text that is looked up
  rcases (resolveSpecifier?_eq_some_iff.mp hresolve).2 with hsame | ⟨-, hsame⟩
  · rw [hspecified] at hsame
    have hcount := congrArg List.length (intercalate_inj hspelled htarget (by simp) hne hsame)
    simp only [List.length_append, List.length_singleton] at hcount
    omega
  · rw [hspecified, indexKey_intercalate (by decide) (by decide)] at hsame
    have hcount := congrArg List.length (intercalate_inj hbelow htarget (by simp) hne hsame)
    simp only [List.length_append, List.length_singleton] at hcount
    omega

/-- A search that starts too high leads to no file that is not an `index` file. -/
theorem not_resolves_of_short (hloses : ¬ package.KeepsDirectory source)
    (htarget : target.stem ≠ "index") (isKnown : ModuleKey → Bool) :
    resolveSpecifier? isKnown ("/".intercalate (package.keySegments ++ source.keySegments))
        specifier ≠
      some ("/".intercalate (package.keySegments ++ target.keySegments)) := by
  intro hresolve
  obtain ⟨reached, hfree, hne, hlength, hspecified⟩ :=
    hsearched.exists_specifiedKey_eq hrelative hleads (by simp [SourcePath.segments])
  rw [SourcePath.keySegments_of_ne htarget] at hresolve
  rcases (resolveSpecifier?_eq_some_iff.mp hresolve).2 with hsame | ⟨-, hbelow⟩
  · rw [hspecified] at hsame
    have hkey : SlashFree (package.keySegments ++ (target.directories ++ [target.stem])) :=
      slashFree_append.mpr ⟨slashFree_of_plain hplain, slashFree_append.mpr
        ⟨slashFree_of_plain target.plain, slashFree_singleton.mpr target.slash_notMem_stem⟩⟩
    have hsegments := intercalate_inj hfree hkey hne (by simp) hsame
    have hcount := congrArg List.length hsegments
    have hshort := hsearched.short hloses
    simp only [SourcePath.segments, List.length_append, List.length_singleton] at hcount hlength
    omega
  · -- the key of an `index` module ends in `index`, that of the target does not
    obtain ⟨before, hbefore⟩ := exists_indexKey_eq (specifiedKey
      ("/".intercalate (package.keySegments ++ source.keySegments)) specifier)
    rw [hbefore, ← List.append_assoc, intercalate_concat
      (List.append_ne_nil_of_left_ne_nil Package.keySegments_ne_nil _)] at hbelow
    have hchars := congrArg String.toList hbelow
    rw [toList_append_slash, toList_append_slash] at hchars
    have hstem := (append_slash_inj (by decide) target.slash_notMem_stem hchars).2
    exact htarget (String.toList_inj.mp hstem.symm)

end Resolution

/-- Relative specifiers between the files of a package lead to the key of their target if the key of
the importing file keeps its directory and the target is not an `index` file, and lead elsewhere if one
of the two fails. The directory is lost for every `index` file other than that at the top of a package
without a scope. -/
theorem resolveSpecifier?_withinPackage_iff {package : Package} {source target : SourcePath}
    {sourcePath targetPath : Path} {before : List String} {specifier : String}
    (hpackage : package.WellFormed)
    (hplain : ∀ segment ∈ package.keySegments, PlainSegment segment)
    (hsource : sourcePath.segments =
      before ++ "node_modules" :: (package.directory ++ source.segments))
    (htarget : targetPath.segments =
      before ++ "node_modules" :: (package.directory ++ target.segments))
    (hrelative : IsRelative specifier)
    (hleads : Leads source.directories specifier target.segments) :
    ∃ sourceKey targetKey, nodeLibraryName? sourcePath = some sourceKey ∧
      nodeLibraryName? targetPath = some targetKey ∧
      ∀ isKnown : ModuleKey → Bool, isKnown targetKey = true →
        package.KeepsDirectory source ∨ target.stem ≠ "index" →
          (resolveSpecifier? isKnown sourceKey specifier = some targetKey ↔
            package.KeepsDirectory source ∧ target.stem ≠ "index") := by
  refine ⟨_, _, nodeLibraryName?_eq hpackage hsource, nodeLibraryName?_eq hpackage htarget, ?_⟩
  intro isKnown hknown hor
  obtain ⟨searched, hsearched⟩ := exists_searchedFrom hplain source
  constructor
  · intro hresolve
    constructor
    · by_contra hloses
      have hindex := hor.resolve_left hloses
      exact not_resolves_of_short hplain hsearched hrelative hleads hloses hindex isKnown hresolve
    · intro hindex
      have hkeeps := hor.resolve_right (not_not_intro hindex)
      exact not_resolves_of_index hplain hsearched hrelative hleads hkeeps hindex isKnown hresolve
  · rintro ⟨hkeeps, hindex⟩
    have hspecified := specifiedKey_of_keepsDirectory hsearched hkeeps hrelative hleads
    rw [List.append_assoc, ← SourcePath.keySegments_of_ne hindex] at hspecified
    exact resolveSpecifier?_eq_some_iff.mpr ⟨hknown, .inl hspecified⟩

theorem leads_mapFile : Leads topIndex.directories "./fp/map.ts" mapFile.segments := by
  have hsteps : stepsOf "./fp/map.ts" = [".", "fp", "map.ts"] := by decide +kernel
  rw [Leads, hsteps]
  exact .stay (.inr rfl) (.down (by decide) (.down (by decide) (.done _)))

/-- The `index` file of `lodash` finds a file of a directory of `lodash`. -/
theorem resolveSpecifier?_withinLodash :
    resolveSpecifier? (· = "lodash/fp/map") "lodash" "./fp/map.ts" = some "lodash/fp/map" := by
  have hdistinct : "lodash".toList.head? ≠ some '@' := by decide
  have hpackage : (Package.bare "lodash").WellFormed := ⟨by decide, by decide, hdistinct⟩
  have hplain : ∀ segment ∈ (Package.bare "lodash").keySegments, PlainSegment segment := by
    decide +kernel
  have hsource : Path.segments ⟨"/w/node_modules/lodash/index.ts"⟩ =
      ["w"] ++ "node_modules" :: ((Package.bare "lodash").directory ++ topIndex.segments) := by
    decide +kernel
  have htarget : Path.segments ⟨"/w/node_modules/lodash/fp/map.ts"⟩ =
      ["w"] ++ "node_modules" :: ((Package.bare "lodash").directory ++ mapFile.segments) := by
    decide +kernel
  have hrelative : IsRelative "./fp/map.ts" := ⟨by decide, by decide⟩
  obtain ⟨sourceKey, targetKey, hsourceKey, htargetKey, hresolve⟩ :=
    resolveSpecifier?_withinPackage_iff hpackage hplain hsource htarget hrelative leads_mapFile
  obtain rfl : sourceKey = "lodash" :=
    Option.some_inj.mp (hsourceKey.symm.trans (by decide +kernel))
  obtain rfl : targetKey = "lodash/fp/map" :=
    Option.some_inj.mp (htargetKey.symm.trans (by decide +kernel))
  have hindex : mapFile.stem ≠ "index" := by decide
  exact (hresolve _ (by decide) (.inr hindex)).mpr ⟨.inr ⟨rfl, by decide⟩, hindex⟩

/-- The `index` file of a package in a scope looks for its neighbours in the scope. -/
theorem resolveSpecifier?_scopeIndex :
    nodeLibraryName? ⟨"/w/node_modules/@scope/pkg/index.ts"⟩ = some "@scope/pkg" ∧
      nodeLibraryName? ⟨"/w/node_modules/@scope/pkg/util.ts"⟩ = some "@scope/pkg/util" ∧
      resolveSpecifier? (· = "@scope/pkg/util") "@scope/pkg" "./util.ts" = none := by
  decide +kernel

end ExportIndex
