import ExportIndex.Proofs.Key.SourcePath

/-!
# Names of library files

A file in a package is known under the name of the package and the path inside it, without the source
extension and without a final `index`. That is the name it is imported by, except that the key also
drops what looks like a source extension from the name of a package without a scope, and drops a
directory `index` at the top of a package together with the `index` file in it.
-/

namespace ExportIndex

/-! ## Packages -/

/-- A package, by its directory below `node_modules`. -/
inductive Package where
  | bare (name : String)
  | inScope (scope name : String)
  /-- Typings of a package without a scope. -/
  | typings (name : String)
  /-- Typings of a package in a scope. -/
  | typingsInScope (scope name : String)

namespace Package

/-- The segments of the directory of a package. -/
def directory : Package → List String
  | bare name => [name]
  | inScope scope name => ["@" ++ scope, name]
  | typings name => ["@types", name]
  | typingsInScope scope name => ["@types", scope ++ "__" ++ name]

/-- The segments of the name that a package is imported by. -/
def importSegments : Package → List String
  | bare name | typings name => [name]
  | inScope scope name | typingsInScope scope name => ["@" ++ scope, name]

/-- The segments that a package has in the keys of its files. -/
def keySegments : Package → List String
  | bare name | typings name => [stripSourceExtension name]
  | inScope scope name | typingsInScope scope name => ["@" ++ scope, name]

/-- The names of a package do not make its directory that of another kind of package. The scope in the
directory name of typings ends at the first double underscore. -/
def Distinct : Package → Prop
  | bare name => name.toList.head? ≠ some '@'
  | inScope scope _ => scope ≠ "types"
  | typings name => ¬ ['_', '_'] <:+: name.toList
  | typingsInScope scope _ => ¬ ['_', '_'] <:+: scope.toList ++ ['_']

/-- A package whose directory is a proper place for a package. -/
structure WellFormed (package : Package) : Prop where
  plain : ∀ segment ∈ package.directory, PlainSegment segment
  outermost : "node_modules" ∉ package.directory
  distinct : package.Distinct

/-- The name of a package without a scope does not end like a source file. -/
def KeepsName : Package → Prop
  | bare name | typings name => ∀ ext ∈ sourceExtensions, ¬ ext.toList <:+ name.toList
  | inScope _ _ | typingsInScope _ _ => True

variable {package : Package}

theorem keySegments_eq_importSegments_iff :
    package.keySegments = package.importSegments ↔ package.KeepsName := by
  cases package <;> simp [keySegments, importSegments, KeepsName, stripSourceExtension_eq_self_iff]

theorem length_keySegments : package.keySegments.length = package.importSegments.length := by
  cases package <;> rfl

theorem keySegments_ne_nil : package.keySegments ≠ [] := by
  cases package <;> exact List.cons_ne_nil _ _

theorem plainSegment_scope {scope : String} (h : '/' ∉ scope.toList) :
    PlainSegment ("@" ++ scope) where
  ne_empty heq := by simpa using congrArg String.toList heq
  ne_dot heq := by simpa using congrArg String.toList heq
  ne_dots heq := by simpa using congrArg String.toList heq
  slash_notMem := by simpa using h

theorem WellFormed.slashFree_importSegments (h : package.WellFormed) :
    SlashFree package.importSegments := by
  have hdirectory := slashFree_of_plain h.plain
  cases package with
  | bare name => exact hdirectory
  | inScope scope name => exact hdirectory
  | typings name => exact fun segment hmem => hdirectory segment (List.mem_cons_of_mem _ hmem)
  | typingsInScope scope name => simpa [SlashFree, directory, importSegments] using hdirectory

theorem WellFormed.slashFree_keySegments (h : package.WellFormed) :
    SlashFree package.keySegments := by
  have himport := h.slashFree_importSegments
  cases package with
  | inScope scope name => exact himport
  | typingsInScope scope name => exact himport
  | bare name | typings name =>
      exact slashFree_singleton.mpr
        (slash_notMem_stripSourceExtension (slashFree_singleton.mp himport))

/-- The name that a package is imported by starts with a plain segment. -/
theorem WellFormed.exists_importSegments_eq (h : package.WellFormed) :
    ∃ first rest, package.importSegments = first :: rest ∧ PlainSegment first := by
  have himport := h.slashFree_importSegments
  cases package with
  | bare name => exact ⟨name, [], rfl, h.plain name (by simp [directory])⟩
  | typings name => exact ⟨name, [], rfl, h.plain name (by simp [directory])⟩
  | inScope scope name =>
      exact ⟨_, [name], rfl, h.plain _ List.mem_cons_self⟩
  | typingsInScope scope name =>
      refine ⟨_, [name], rfl, plainSegment_scope ?_⟩
      simpa using himport _ List.mem_cons_self

/-- The package is found from its directory, whatever stands inside it. -/
theorem WellFormed.packageName?_eq (h : package.WellFormed) {inside : List String}
    (hinside : inside ≠ []) :
    packageName? (package.directory ++ inside) =
      some ("/".intercalate package.keySegments, inside) := by
  obtain ⟨second, rest, rfl⟩ := List.exists_cons_of_ne_nil hinside
  have hdistinct := h.distinct
  cases package with
  | bare name =>
      have htypes : name ≠ "@types" := by
        rintro rfl
        exact hdistinct rfl
      have hhead : name.toList.head? ≠ some '@' := hdistinct
      simp [directory, keySegments, packageName?, htypes, hhead]
  | inScope scope name =>
      have htypes : "@" ++ scope ≠ "@types" := by
        rintro heq
        exact hdistinct (String.append_right_inj _ |>.mp heq)
      simp [directory, keySegments, packageName?, htypes]
  | typings name =>
      have hcut : Text.cutAt? ['_', '_'] name.toList = none :=
        Text.cutAt?_eq_none (List.cons_ne_nil _ _) hdistinct
      simp [directory, keySegments, packageName?, hcut]
  | typingsInScope scope name =>
      have hcut : Text.cutAt? ['_', '_'] (scope ++ "__" ++ name).toList =
          some (scope.toList, name.toList) := by
        simpa using Text.cutAt?_append hdistinct name.toList
      simp only [directory, keySegments, packageName?, List.cons_append, List.nil_append, if_pos, hcut]
      congr 2
      exact String.toList_inj.mp (by simp)

end Package

/-! ## Installed files -/

/-- The name that a file of a package is imported by: the name of the package, and after it the path
inside the package without the extension and without a final `index`. -/
def Package.importName (package : Package) (file : SourcePath) : String :=
  "/".intercalate (package.importSegments ++ file.importSegments)

theorem Package.WellFormed.isPathSpecifier_importName {package : Package} (h : package.WellFormed)
    (file : SourcePath) : isPathSpecifier (package.importName file) = false := by
  obtain ⟨first, rest, hfirst, hplain⟩ := h.exists_importSegments_eq
  have hfree : SlashFree (package.importSegments ++ file.importSegments) :=
    slashFree_append.mpr ⟨h.slashFree_importSegments, SourcePath.slashFree_importSegments⟩
  rw [hfirst, List.cons_append] at hfree
  rw [importName, hfirst, List.cons_append]
  exact isPathSpecifier_intercalate hplain hfree

theorem afterLastItem?_of_notMem {mark : String} {items : List String} (h : mark ∉ items) :
    afterLastItem? mark items = none := by
  induction items with
  | nil => rfl
  | cons item rest ih =>
      rw [List.mem_cons, not_or] at h
      simp [afterLastItem?, ih h.2, Ne.symm h.1]

theorem afterLastItem?_append {mark : String} {after : List String} (h : mark ∉ after)
    (before : List String) : afterLastItem? mark (before ++ mark :: after) = some after := by
  induction before with
  | nil => simp [afterLastItem?, afterLastItem?_of_notMem h]
  | cons item rest ih => simp [afterLastItem?, ih]

section Installed

variable {package : Package} {file : SourcePath} {path : Path} {before : List String}
  (hpackage : package.WellFormed)
  (hpath : path.segments = before ++ "node_modules" :: (package.directory ++ file.segments))

include hpackage hpath

/-- The key of an installed file is made of the segments of the package and its own. -/
theorem nodeLibraryName?_eq :
    nodeLibraryName? path = some ("/".intercalate (package.keySegments ++ file.keySegments)) := by
  have hsegments : file.segments ≠ [] :=
    List.append_ne_nil_of_right_ne_nil _ (List.cons_ne_nil _ _)
  have hmark : "node_modules" ∉ package.directory ++ file.segments := by
    rw [List.mem_append, not_or]
    exact ⟨hpackage.outermost, SourcePath.nodeModules_notMem_segments⟩
  rw [nodeLibraryName?, hpath, afterLastItem?_append hmark, Option.bind_some,
    hpackage.packageName?_eq hsegments]
  exact congrArg some (SourcePath.libraryNameOf_segments Package.keySegments_ne_nil)

/-- A library file is found under the name it is imported by: its key is that name, and from every
module the name as a specifier leads to it. The key is another text exactly when the package has no
scope and a name that ends like a source file, such as `highlight.js`, and for the `index` file of a
directory `index` at the top of the package. -/
theorem nodeLibraryName?_eq_importName_iff :
    (nodeLibraryName? path = some (package.importName file) ↔
      package.KeepsName ∧ ¬ file.IsIndexOfIndex) ∧
    ∀ (isKnown : ModuleKey → Bool) (fromModule : ModuleKey),
      isKnown (package.importName file) = true →
        resolveSpecifier? isKnown fromModule (package.importName file) =
          some (package.importName file) := by
  constructor
  · rw [nodeLibraryName?_eq hpackage hpath, Option.some_inj, Package.importName,
      ← Package.keySegments_eq_importSegments_iff, ← SourcePath.keySegments_eq_importSegments_iff]
    constructor
    · intro heq
      -- packages have as many segments in keys as in import names, so the texts agree part by part
      refine List.append_inj (intercalate_inj ?_ ?_ ?_ ?_ heq) Package.length_keySegments
      · exact slashFree_append.mpr
          ⟨hpackage.slashFree_keySegments, SourcePath.slashFree_keySegments⟩
      · exact slashFree_append.mpr
          ⟨hpackage.slashFree_importSegments, SourcePath.slashFree_importSegments⟩
      · exact List.append_ne_nil_of_left_ne_nil Package.keySegments_ne_nil _
      · obtain ⟨first, rest, hfirst, -⟩ := hpackage.exists_importSegments_eq
        simp [hfirst]
    · rintro ⟨hname, hindex⟩
      rw [hname, hindex]
  · intro isKnown fromModule hknown
    have hspecified := specifiedKey_of_bare (hpackage.isPathSpecifier_importName file) fromModule
    exact resolveSpecifier?_eq_some_iff.mpr ⟨hknown, .inl hspecified⟩

end Installed

/-- The typings of `@babel/core` are found by the name of the package they describe. -/
theorem nodeLibraryName?_babelCore :
    nodeLibraryName? ⟨"/w/node_modules/@types/babel__core/lib/index.d.ts"⟩ =
        some "@babel/core/lib" ∧
      ∀ fromModule, resolveSpecifier? (· = "@babel/core/lib") fromModule "@babel/core/lib" =
        some "@babel/core/lib" := by
  have hdistinct : ¬ ['_', '_'] <:+: "babel".toList ++ ['_'] := by decide
  have hpackage : (Package.typingsInScope "babel" "core").WellFormed :=
    ⟨by decide, by decide, hdistinct⟩
  have hpath : Path.segments ⟨"/w/node_modules/@types/babel__core/lib/index.d.ts"⟩ =
      ["w"] ++ "node_modules" ::
        ((Package.typingsInScope "babel" "core").directory ++ libIndexTypings.segments) := by
    decide +kernel
  obtain ⟨hname, hresolve⟩ := nodeLibraryName?_eq_importName_iff hpackage hpath
  have htext : (Package.typingsInScope "babel" "core").importName libIndexTypings =
      "@babel/core/lib" := by decide +kernel
  rw [htext] at hname hresolve
  exact ⟨hname.mpr ⟨trivial, by decide⟩, fun fromModule => hresolve _ fromModule (by decide)⟩

/-- A package that is named like a source file loses the end of its name. -/
theorem nodeLibraryName?_highlightJs :
    nodeLibraryName? ⟨"/w/node_modules/highlight.js/lib/core.ts"⟩ = some "highlight/lib/core" := by
  decide +kernel

end ExportIndex
