import ExportIndex.Proofs.Key.Walk

/-!
# Paths of source files

A source file lies somewhere below the directory of a package or of a project. What its key keeps of its
path is the path without the source extension and without a final `index`.
-/

namespace ExportIndex

/-- A source file, by its path below the directory of a package or of a project. -/
structure SourcePath where
  directories : List String
  stem : String
  extension : String
  plain : ∀ directory ∈ directories, PlainSegment directory
  /-- No package is installed on the way to the file. -/
  outermost : "node_modules" ∉ directories
  stem_ne_empty : stem ≠ ""
  slash_notMem_stem : '/' ∉ stem.toList
  extension_mem : extension ∈ sourceExtensions
  /-- The extension is all of what looks like one, such as `.d.ts`. -/
  longest : ∀ other ∈ sourceExtensions, other.toList <:+ (stem ++ extension).toList →
    other.length ≤ extension.length

namespace SourcePath

/-- The segments of the path of a file. -/
def segments (file : SourcePath) : List String :=
  file.directories ++ [file.stem ++ file.extension]

/-- The segments by which a file is imported: without the extension and without a final `index`. -/
def importSegments (file : SourcePath) : List String :=
  if file.stem = "index" then file.directories else file.directories ++ [file.stem]

/-- The `index` file of a directory `index` at the top of a package. -/
def IsIndexOfIndex (file : SourcePath) : Prop :=
  file.stem = "index" ∧ file.directories = ["index"]

instance (file : SourcePath) : Decidable file.IsIndexOfIndex :=
  inferInstanceAs (Decidable (_ ∧ _))

/-- The segments that a file has in its key below those of the package. -/
def keySegments (file : SourcePath) : List String :=
  if file.IsIndexOfIndex then [] else file.importSegments

variable {file : SourcePath}

theorem slashFree_stem : SlashFree (file.directories ++ [file.stem]) :=
  slashFree_append.mpr
    ⟨slashFree_of_plain file.plain, slashFree_singleton.mpr file.slash_notMem_stem⟩

theorem slashFree_importSegments : SlashFree file.importSegments := by
  unfold importSegments
  split
  · exact slashFree_of_plain file.plain
  · exact slashFree_stem

theorem slashFree_keySegments : SlashFree file.keySegments := by
  unfold keySegments
  split
  · exact fun segment hmem => absurd hmem List.not_mem_nil
  · exact slashFree_importSegments

theorem keySegments_eq_importSegments_iff :
    file.keySegments = file.importSegments ↔ ¬ file.IsIndexOfIndex := by
  unfold keySegments
  split
  next h => simp [h, importSegments, h.1, h.2]
  next h => simp [h]

theorem nodeModules_notMem_segments : "node_modules" ∉ file.segments := by
  have hends : ∀ ext ∈ sourceExtensions, ¬ ext.toList <:+ "node_modules".toList := by decide
  rw [segments, List.mem_append, List.mem_singleton]
  rintro (hdirectory | hname)
  · exact file.outermost hdirectory
  · refine hends file.extension file.extension_mem ?_
    rw [hname, String.toList_append]
    exact List.suffix_append _ _

/-- The segments below a package that are left when the extension and a final `index` are taken
away. -/
def pathSegments (file : SourcePath) : List String :=
  if file.stem = "index" ∧ file.directories ≠ [] then file.directories
  else file.directories ++ [file.stem]

theorem pathSegments_ne_nil : file.pathSegments ≠ [] := by
  unfold pathSegments
  split
  next h => exact h.2
  next => exact List.append_ne_nil_of_right_ne_nil _ (List.cons_ne_nil _ _)

theorem slashFree_pathSegments : SlashFree file.pathSegments := by
  unfold pathSegments
  split
  · exact slashFree_of_plain file.plain
  · exact slashFree_stem

theorem empty_notMem_pathSegments : "" ∉ file.pathSegments := by
  have hdirectories : "" ∉ file.directories := fun hmem => (file.plain "" hmem).ne_empty rfl
  unfold pathSegments
  split
  · exact hdirectories
  · simp [hdirectories, file.stem_ne_empty.symm]

theorem keySegments_eq :
    file.keySegments = if file.pathSegments = ["index"] then [] else file.pathSegments := by
  unfold keySegments IsIndexOfIndex importSegments pathSegments
  by_cases hstem : file.stem = "index"
  · by_cases hdirectories : file.directories = []
    · simp [hstem, hdirectories]
    · simp [hstem, hdirectories]
  · have hne : file.directories ++ [file.stem] ≠ ["index"] := by
      intro heq
      have hmem : file.stem ∈ ["index"] := heq ▸ List.mem_append_right _ List.mem_cons_self
      exact hstem (List.mem_singleton.mp hmem)
    simp [hstem, hne]

theorem pathInPackage_segments :
    pathInPackage file.segments = "/".intercalate file.pathSegments := by
  have hpath : stripSourceExtension ("/".intercalate file.segments) =
      "/".intercalate (file.directories ++ [file.stem]) := by
    rw [segments, stripSourceExtension_intercalate,
      stripSourceExtension_append file.extension_mem file.longest]
  unfold pathInPackage pathSegments
  rw [hpath]
  by_cases hdirectories : file.directories = []
  · have hending : Text.beforeEnding? "/index".toList file.stem.toList = none := by
      rw [Text.beforeEnding?_eq_none_iff]
      exact fun hends => file.slash_notMem_stem (hends.subset List.mem_cons_self)
    rw [if_neg fun h => h.2 hdirectories, hdirectories, List.nil_append,
      String.intercalate_singleton]
    simp only [hending]
  · rw [intercalate_concat hdirectories]
    simp only [beforeEnding?_index file.slash_notMem_stem]
    by_cases hstem : file.stem = "index"
    · rw [if_pos hstem, if_pos ⟨hstem, hdirectories⟩]
      exact String.ofList_toList
    · rw [if_neg hstem, if_neg fun h => hstem h.1, intercalate_concat hdirectories]

/-- The name of a file in a package is that of the package followed by its own segments. -/
theorem libraryNameOf_segments {package : List String} (hpackage : package ≠ []) :
    libraryNameOf ("/".intercalate package) file.segments =
      "/".intercalate (package ++ file.keySegments) := by
  have hempty : "/".intercalate file.pathSegments ≠ "" := by
    rw [Ne, intercalate_eq_iff slashFree_pathSegments pathSegments_ne_nil (by simp)]
    intro heq
    exact empty_notMem_pathSegments (heq ▸ List.mem_cons_self)
  have hindex : "/".intercalate file.pathSegments = "index" ↔ file.pathSegments = ["index"] :=
    intercalate_eq_iff slashFree_pathSegments pathSegments_ne_nil (by decide)
  rw [libraryNameOf, pathInPackage_segments, keySegments_eq]
  by_cases heq : file.pathSegments = ["index"]
  · rw [if_pos (.inr (hindex.mpr heq)), if_pos heq, List.append_nil]
  · rw [if_neg (not_or.mpr ⟨hempty, fun h => heq (hindex.mp h)⟩), if_neg heq,
      String.intercalate_append_of_ne_nil hpackage pathSegments_ne_nil]

end SourcePath

/-! ## Files that packages have -/

/-- The file `lib/index.d.ts` of a package. -/
def libIndexTypings : SourcePath where
  directories := ["lib"]
  stem := "index"
  extension := ".d.ts"
  plain := by decide
  outermost := by decide
  stem_ne_empty := by decide
  slash_notMem_stem := by decide
  extension_mem := by decide
  longest := by decide +kernel

/-- The file `index.ts` at the top of a package. -/
def topIndex : SourcePath where
  directories := []
  stem := "index"
  extension := ".ts"
  plain := by decide
  outermost := by decide
  stem_ne_empty := by decide
  slash_notMem_stem := by decide
  extension_mem := by decide
  longest := by decide +kernel

/-- The file `fp/map.ts` of a package. -/
def mapFile : SourcePath where
  directories := ["fp"]
  stem := "map"
  extension := ".ts"
  plain := by decide
  outermost := by decide
  stem_ne_empty := by decide
  slash_notMem_stem := by decide
  extension_mem := by decide
  longest := by decide +kernel

end ExportIndex
