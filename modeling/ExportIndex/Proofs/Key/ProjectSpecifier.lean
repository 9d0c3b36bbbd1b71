import ExportIndex.Proofs.Key.Library

/-!
# Relative specifiers inside a project

Below the root, a relative specifier spells the key of the place it leads to. It finds a file there
when it leads to the file, to the path of the file without its source extension, or to the directory
of an `index` file.
-/

namespace ExportIndex

/-- A file below a root, by the segments of its path there. It is part of no installed package. -/
structure LiesAt (root file : Path) (segments : List String) : Prop where
  components_eq : file.components = root.components ++ segments.map .name
  outermost : "node_modules" ∉ file.segments

/-- A place below the root by which a specifier names a file with the given directories and name. -/
inductive NamesFile (isKnown : ModuleKey → Bool) (directories : List String) (name : String) :
    List String → Prop
  /-- The file itself. -/
  | file : NamesFile isKnown directories name (directories ++ [name])
  /-- The path of the file without its extension, if that does not end like a source file again. -/
  | stem (hstem : ∀ ext ∈ sourceExtensions, ¬ ext.toList <:+ (stripSourceExtension name).toList) :
      NamesFile isKnown directories name (directories ++ [stripSourceExtension name])
  /-- The directory of an `index` file, if it is not the root, does not end like a source file and
  is not itself the key of a module. -/
  | directory {parents last} (hindex : stripSourceExtension name = "index")
      (hdirectories : directories = parents ++ [last])
      (hlast : ∀ ext ∈ sourceExtensions, ¬ ext.toList <:+ last.toList)
      (hfree : isKnown (projectKey directories) = false) :
      NamesFile isKnown directories name directories

/-! ## Keys of project files -/

/-- A name among the components of a path is a plain segment. -/
theorem plainSegment_of_name_mem {path : Path} {name : String}
    (h : Path.Component.name name ∈ path.components) : PlainSegment name := by
  rw [Path.components, List.mem_append, Option.mem_toList, List.mem_filterMap] at h
  rcases h with hleading | ⟨piece, hpiece, hname⟩
  · unfold Path.leading? at hleading
    split at hleading
    · simp at hleading
    · split at hleading <;> simp at hleading
  · have hslash := Text.notMem_of_mem_splitOn hpiece
    unfold Path.Component.ofPiece? at hname
    split at hname
    next => simp at hname
    next hstay =>
      split at hname
      next => simp at hname
      next hup =>
        obtain rfl : String.ofList piece = name := by simpa using hname
        rw [not_or] at hstay
        refine ⟨?_, ?_, ?_, by simpa using hslash⟩ <;>
          rw [Ne, ← String.toList_inj, String.toList_ofList]
        exacts [hstay.1, hstay.2, hup]

theorem segmentsOf_map_name (names : List String) :
    Path.segmentsOf (names.map .name) = names := by
  simp [Path.segmentsOf, Path.Component.segment?, Function.comp_def]

theorem stripLeading?_append (leads rest : List Path.Component) :
    Path.stripLeading? leads (leads ++ rest) = some rest := by
  induction leads with
  | nil => rfl
  | cons lead leads ih => rw [List.cons_append, Path.stripLeading?, if_pos rfl, ih]

namespace LiesAt

variable {root file : Path} {segments : List String} (h : LiesAt root file segments)

include h

theorem plain : ∀ segment ∈ segments, PlainSegment segment := by
  intro segment hmem
  have hname : Path.Component.name segment ∈ file.components := by
    rw [h.components_eq]
    exact List.mem_append_right _ (List.mem_map_of_mem hmem)
  exact plainSegment_of_name_mem hname

/-- The key of a project file is that of its place below the root. -/
theorem moduleKey_eq : moduleKey file root = projectKey segments := by
  have hlibrary : nodeLibraryName? file = none := by
    rw [nodeLibraryName?, afterLastItem?_of_notMem h.outermost, Option.bind_none]
  have hbelow : file.componentsBelow root = segments.map .name := by
    rw [Path.componentsBelow, h.components_eq, stripLeading?_append, Option.getD_some]
  simp only [moduleKey, hlibrary, hbelow, segmentsOf_map_name]

end LiesAt

theorem projectKey_concat (directories : List String) (name : String) :
    projectKey (directories ++ [name]) =
      "/".intercalate ("" :: directories) ++ "/" ++ stripSourceExtension name := by
  rw [projectKey, stripSourceExtension_intercalate, ← intercalate_empty_cons (by simp),
    ← List.cons_append, intercalate_concat (List.cons_ne_nil _ _)]

/-- The directory of a project file is read off its key. -/
theorem moduleDirectory_projectKey {directories : List String} {name : String}
    (hname : '/' ∉ name.toList) :
    moduleDirectory (projectKey (directories ++ [name])) = "/" ++ "/".intercalate directories := by
  have hstem : '/' ∉ (stripSourceExtension name).toList := slash_notMem_stripSourceExtension hname
  rw [projectKey_concat]
  by_cases hdirectories : directories = []
  · rw [hdirectories, String.intercalate_singleton, moduleDirectory, toList_append_slash,
      Text.beforeLast?_append hstem]
    rfl
  · rw [intercalate_empty_cons hdirectories,
      moduleDirectory_append_slash (by simp) hstem]

/-- A relative specifier spells the key of the place to which it leads from a project file. -/
theorem specifiedKey_projectKey {here there : List String} {name specifier : String}
    (hplain : ∀ segment ∈ here, PlainSegment segment) (hname : '/' ∉ name.toList)
    (hrelative : IsRelative specifier) (hleads : Leads here specifier there) :
    specifiedKey (projectKey (here ++ [name])) specifier = projectKey there := by
  have hwalk := Walks.foldl_walkSegment hleads []
  rw [map_toList_stepsOf, List.append_nil, List.append_nil] at hwalk
  have hnormal : normalizeModulePath ("/" ++ "/".intercalate here ++ "/" ++ specifier) =
      "/" ++ "/".intercalate there := by
    have hhead : ("/" ++ "/".intercalate here ++ "/" ++ specifier).toList.head? = some '/' := by
      simp
    rw [normalizeModulePath, normalizePathChars, if_pos hhead, walkedSegments, toList_append_slash,
      List.splitOn_append_cons_self, List.foldl_append, foldl_walkSegment_absolute hplain, hwalk]
    exact String.toList_inj.mp (by simp)
  have hstrip := stripSourceExtension_append_slash "" ("/".intercalate there)
  rw [String.empty_append] at hstrip
  rw [specifiedKey, if_pos hrelative.1]
  simp only [if_neg hrelative.2]
  rw [moduleDirectory_projectKey hname, hnormal, hstrip, projectKey]

/-! ## Resolution -/

theorem projectKey_stem {directories : List String} {name : String}
    (h : ∀ ext ∈ sourceExtensions, ¬ ext.toList <:+ (stripSourceExtension name).toList) :
    projectKey (directories ++ [stripSourceExtension name]) = projectKey (directories ++ [name]) := by
  rw [projectKey_concat, projectKey_concat, stripSourceExtension_eq_self_iff.mpr h]

/-- The `index` module below the key of a directory is the `index` file in it. -/
theorem indexKey_projectKey {parents : List String} {last name : String}
    (hlast : PlainSegment last) (hends : ∀ ext ∈ sourceExtensions, ¬ ext.toList <:+ last.toList)
    (hindex : stripSourceExtension name = "index") :
    indexKey (projectKey (parents ++ [last])) = projectKey (parents ++ [last] ++ [name]) := by
  rw [projectKey_concat, projectKey_concat, hindex, stripSourceExtension_eq_self_iff.mpr hends,
    ← intercalate_concat (List.cons_ne_nil _ _),
    indexKey_intercalate hlast.ne_empty hlast.slash_notMem, intercalate_concat (by simp)]
  rfl

/-- A relative specifier that names a project file resolves to the key of the file, from every file
of the project and among any known modules: with any redundant steps in the specifier that stay below
the root, and whichever way it names the file. -/
theorem resolveSpecifier?_moduleKey {root source target : Path}
    {here directories there : List String} {sourceName name specifier : String}
    {isKnown : ModuleKey → Bool} (hsource : LiesAt root source (here ++ [sourceName]))
    (htarget : LiesAt root target (directories ++ [name])) (hrelative : IsRelative specifier)
    (hleads : Leads here specifier there) (hnames : NamesFile isKnown directories name there)
    (hknown : isKnown (moduleKey target root) = true) :
    resolveSpecifier? isKnown (moduleKey source root) specifier = some (moduleKey target root) := by
  have hplain := List.forall_mem_append.mp hsource.plain
  have hspecified : specifiedKey (moduleKey source root) specifier = projectKey there := by
    rw [hsource.moduleKey_eq]
    exact specifiedKey_projectKey hplain.1 (hplain.2 _ List.mem_cons_self).slash_notMem hrelative
      hleads
  rw [resolveSpecifier?_eq_some_iff, hspecified]
  refine ⟨hknown, ?_⟩
  rw [htarget.moduleKey_eq]
  cases hnames with
  | file => exact .inl rfl
  | stem hstem => exact .inl (projectKey_stem hstem)
  | @directory parents last hindex hdirectories hlast hfree =>
      subst hdirectories
      refine .inr ⟨hfree, indexKey_projectKey ?_ hlast hindex⟩
      exact htarget.plain last (by simp)

/-- The directory `lib` is found from a file in `src`, with redundant steps on the way. -/
theorem resolveSpecifier?_libDirectory :
    resolveSpecifier? (· = "/lib/index") "/src/app" "./..//src/../lib/" = some "/lib/index" := by
  have hsource : LiesAt ⟨"/w"⟩ ⟨"/w/src/app.ts"⟩ (["src"] ++ ["app.ts"]) :=
    ⟨by decide +kernel, by decide +kernel⟩
  have htarget : LiesAt ⟨"/w"⟩ ⟨"/w/lib/index.d.ts"⟩ (["lib"] ++ ["index.d.ts"]) :=
    ⟨by decide +kernel, by decide +kernel⟩
  have hsteps : stepsOf "./..//src/../lib/" = [".", "..", "", "src", "..", "lib", ""] := by
    decide +kernel
  have hleads : Leads ["src"] "./..//src/../lib/" ["lib"] := by
    rw [Leads, hsteps]
    exact .stay (.inr rfl) (.up (.stay (.inl rfl) (.down (by decide) (.up (.down (by decide)
      (.stay (.inl rfl) (.done _)))))))
  have hdirectory : ["lib"] = [] ++ ["lib"] := rfl
  have hnames : NamesFile (· = "/lib/index") ["lib"] "index.d.ts" ["lib"] :=
    .directory (by decide +kernel) hdirectory (by decide) (by decide)
  have hresolve := resolveSpecifier?_moduleKey hsource htarget ⟨by decide, by decide⟩ hleads hnames
    (by decide +kernel)
  rw [hsource.moduleKey_eq, htarget.moduleKey_eq] at hresolve
  exact hresolve

end ExportIndex
