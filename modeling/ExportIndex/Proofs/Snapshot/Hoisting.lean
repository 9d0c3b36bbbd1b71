import ExportIndex.Proofs.Comments.Resources
import ExportIndex.Proofs.Extraction.ModuleBlocks
import ExportIndex.Proofs.Key.ImportPath
import ExportIndex.Proofs.Session.Builds
import ExportIndex.Proofs.Table.Modules

/-!
# Which modules are hoisted

With hoisting, the modules of a snapshot are the files and the modules that come first in a `declare`
statement of a declaration file. How a name is written makes no difference there, and what comes behind a
comment is not seen. So these are the modules that are declared by a string only if every other name
that is read, and every string that is not, is the key of a file or is declared in the other way too.
-/

namespace ExportIndex

namespace Document

/-- The names of the modules that do not come first in a `declare` statement. -/
def laterNames (document : Document) : List Node :=
  document.declared.flatMap fun statement =>
    statement.namedChildren.tail.filterMap (·.node.moduleName?)

/-- The names of declared modules that are written as strings. -/
def stringNames (document : Document) : List Node :=
  (document.leadingNames ++ document.laterNames).filter (·.kind = "string")

/-- The names that are read although they are no strings. -/
def plainNames (document : Document) : List Node :=
  document.leadingNames.filter (·.kind ≠ "string")

/-- The strings that are not read. -/
def hiddenNames (document : Document) : List Node :=
  document.laterNames.filter (·.kind = "string")

end Document

/-- The text of a name stands among some names of a declaration file. -/
def Reader.Names (reader : Reader) (paths : List Path) (names : Document → List Node)
    (key : ModuleKey) : Prop :=
  ∃ path ∈ paths, path.isDeclarationFile = true ∧
    ∃ name ∈ names (reader.documentAt path), name.unquoted (reader.documentAt path).text = key

instance (reader : Reader) (paths : List Path) (names : Document → List Node) (key : ModuleKey) :
    Decidable (reader.Names paths names key) :=
  inferInstanceAs (Decidable (∃ path ∈ paths, path.isDeclarationFile = true ∧
    ∃ name ∈ names (reader.documentAt path), name.unquoted (reader.documentAt path).text = key))

theorem Reader.names_iff_or {reader : Reader} {paths : List Path} {names first second : Document → List Node}
    (h : ∀ document name, name ∈ names document ↔ name ∈ first document ∨ name ∈ second document)
    (key : ModuleKey) :
    reader.Names paths names key ↔ reader.Names paths first key ∨ reader.Names paths second key := by
  simp only [Names, h]
  constructor
  · rintro ⟨path, hpath, hfile, name, hname | hname, hkey⟩
    · exact .inl ⟨path, hpath, hfile, name, hname, hkey⟩
    · exact .inr ⟨path, hpath, hfile, name, hname, hkey⟩
  · rintro (⟨path, hpath, hfile, name, hname, hkey⟩ | ⟨path, hpath, hfile, name, hname, hkey⟩)
    · exact ⟨path, hpath, hfile, name, .inl hname, hkey⟩
    · exact ⟨path, hpath, hfile, name, .inr hname, hkey⟩

/-- The keys of some files. -/
def Config.fileKeys (config : Config) (paths : List Path) : List ModuleKey :=
  paths.map fun path => moduleKey path config.root

namespace Snapshot

/-- The modules of a snapshot are some files and, beside them, some declared modules. Only those are
offered as a whole, and every entry is provided by one of either. -/
structure Hoists (s : Snapshot) (fileKeys : List ModuleKey) (declared : ModuleKey → Prop) : Prop where
  mem_keys_iff : ∀ key, key ∈ s.resources.keys ↔ key ∈ fileKeys ∨ declared key
  whole : ∀ name, ∀ info ∈ s.lookup name, info.binding.slot = .whole →
    declared info.provider ∧ info.provider ∉ fileKeys
  provider : ∀ info, s.HasEntry info → info.provider ∈ fileKeys ∨ declared info.provider

variable {name : String} {info : DeclarationInfo} {resources : List Resource}

/-- Only a module that is not a file is offered as a whole. -/
theorem exists_declaredIn_of_whole {table : ModuleTable}
    (h : info ∈ (assemble table table.resolve).lookup name) (hslot : info.binding.slot = .whole) :
    ∃ entry, table.get? info.provider = some entry ∧ entry.declaredIn?.isSome := by
  rcases mem_lookup_assemble h with ⟨key, surface, hentry, hnamed⟩ | ⟨entry, hentry, hwhole⟩
  · obtain ⟨binding, hoffer, hfound⟩ := ModuleTable.mem_namedInfos_iff.mp hnamed
    have hwell := table.keeps_wellFormed.resolve key
    rw [ModuleTable.source_resolve_of_mem hentry] at hwell
    have hbinding := ((Surface.mem_namedOffers_iff hwell).mp hoffer).2
    -- what a surface lists is an item of its module, and a module is no item of its own
    obtain ⟨origin, _, _, hslots, -⟩ :=
      (ModuleTable.traced_of_mem_resolve hentry hbinding hfound).handedOn
    exact absurd (hslot ▸ hslots) origin.whole_notMem_slots
  · obtain ⟨key, hget⟩ := ModuleTable.mem_entries_iff.mp hentry
    rw [provider_of_wholeInfo? hwhole, ModuleTable.key_of_get? hget]
    refine ⟨entry, hget, ?_⟩
    unfold ModuleTable.wholeInfo? at hwhole
    split at hwhole
    next hfile => exact hfile ▸ rfl
    next => cases hwhole

theorem keys_ofResources (hoists : Bool) (resources : List Resource) :
    (ofResources hoists resources).resources.keys = (ModuleTable.build hoists resources).keys :=
  Registry.keys_mapValues _ _

theorem mem_keys_ofResources_iff (resources : List Resource) (key : ModuleKey) :
    key ∈ (ofResources true resources).resources.keys ↔
      key ∈ resources.map Resource.identifier ∨ key ∈ ModuleSources.blockNames resources := by
  rw [keys_ofResources, ModuleTable.keys_build_eq, List.mem_append, List.mem_eraseDups,
    ModuleSources.mem_hoistedNames_iff]
  by_cases hkey : key ∈ resources.map Resource.identifier <;> simp [hkey]

/-- Whatever else a snapshot lists is settled by its modules. -/
theorem hoists_iff {fileKeys : List ModuleKey} {declared : ModuleKey → Prop}
    (hfiles : resources.map Resource.identifier = fileKeys) :
    (ofResources true resources).Hoists fileKeys declared ↔ ∀ key,
      key ∈ fileKeys ∨ key ∈ ModuleSources.blockNames resources ↔ key ∈ fileKeys ∨ declared key := by
  subst hfiles
  constructor
  · intro h key
    rw [← mem_keys_ofResources_iff, h.mem_keys_iff]
  · intro h
    have hkeys := fun key => (mem_keys_ofResources_iff resources key).trans (h key)
    have hprovider : ∀ info, (ofResources true resources).HasEntry info →
        info.provider ∈ (ofResources true resources).resources.keys := by
      intro info hinfo
      rw [keys_ofResources]
      exact HasEntry.provider_mem hinfo
    refine ⟨hkeys, fun name info hinfo hslot => ?_, fun info hinfo =>
      (hkeys _).mp (hprovider info hinfo)⟩
    obtain ⟨entry, hget, hdeclared⟩ := exists_declaredIn_of_whole hinfo hslot
    have hnot : info.provider ∉ resources.map Resource.identifier := by
      intro hmem
      rw [ModuleTable.get?_build_of_mem hmem, Option.map_eq_some_iff] at hget
      obtain ⟨_, _, rfl⟩ := hget
      cases hdeclared
    exact ⟨((hkeys _).mp (hprovider info (.inl ⟨name, hinfo⟩))).resolve_left hnot, hnot⟩

end Snapshot

namespace Config

variable {config : Config} {reader : Reader} {paths : List Path} {s : Snapshot}

theorem identifiers_resourceOf (config : Config) (reader : Reader) (paths : List Path) :
    (paths.map (config.resourceOf reader)).map Resource.identifier = config.fileKeys paths := by
  rw [List.map_map]
  exact List.map_congr_left fun path _ => Document.identifier_toResource _ path config.root

theorem mem_blockNames_resourceOf_iff {key : ModuleKey} :
    key ∈ ModuleSources.blockNames (paths.map (config.resourceOf reader)) ↔
      reader.Names paths Document.leadingNames key := by
  rw [ModuleSources.blockNames_eq_flatMap, List.flatMap_map, List.mem_flatMap]
  refine exists_congr fun path => and_congr_right fun _ => ?_
  rw [resourceOf, Document.blockNames_toResource]
  split
  next hfile => simp [hfile]
  next hfile => simp [hfile]

theorem hoists_snapshot_iff (hhoists : config.hoistsAmbientModules = true)
    (h : config.snapshot reader paths = .ok s) {declared : ModuleKey → Prop} :
    s.Hoists (config.fileKeys paths) declared ↔ ∀ key,
      key ∈ config.fileKeys paths ∨ reader.Names paths Document.leadingNames key ↔
        key ∈ config.fileKeys paths ∨ declared key := by
  obtain ⟨-, -, rfl⟩ := snapshot_eq_ok_iff.mp h
  rw [hhoists, Snapshot.hoists_iff (config.identifiers_resourceOf reader paths)]
  simp only [mem_blockNames_resourceOf_iff]

/-- With hoisting, the modules beside the files are those that come first in a `declare` statement of a
declaration file, and nothing else is offered or provides anything. These are the modules that are
declared by a string exactly if every other name that is read is the key of a file or also declared by a
string, and every string that is not read is the key of a file or also a name that is read. -/
theorem snapshot_hoists (hhoists : config.hoistsAmbientModules = true)
    (h : config.snapshot reader paths = .ok s) :
    s.Hoists (config.fileKeys paths) (reader.Names paths Document.leadingNames) ∧
    (s.Hoists (config.fileKeys paths) (reader.Names paths Document.stringNames) ↔
      (∀ key, reader.Names paths Document.plainNames key →
        key ∈ config.fileKeys paths ∨ reader.Names paths Document.stringNames key) ∧
      ∀ key, reader.Names paths Document.hiddenNames key →
        key ∈ config.fileKeys paths ∨ reader.Names paths Document.leadingNames key) := by
  refine ⟨(hoists_snapshot_iff hhoists h).mpr fun _ => Iff.rfl, ?_⟩
  have hleading : ∀ key, reader.Names paths Document.leadingNames key ↔
      reader.Names paths Document.plainNames key ∨
        reader.Names paths (fun document => document.leadingNames.filter (·.kind = "string")) key :=
    Reader.names_iff_or fun document name => by
      by_cases hkind : name.kind = "string" <;> simp [Document.plainNames, hkind]
  have hstring : ∀ key, reader.Names paths Document.stringNames key ↔
      reader.Names paths (fun document => document.leadingNames.filter (·.kind = "string")) key ∨
        reader.Names paths Document.hiddenNames key :=
    Reader.names_iff_or fun document name => by
      rw [Document.stringNames, Document.hiddenNames, List.filter_append, List.mem_append]
  rw [hoists_snapshot_iff hhoists h]
  constructor
  · intro hsame
    exact ⟨fun key hplain => (hsame key).mp (.inr ((hleading key).mpr (.inl hplain))),
      fun key hhidden => (hsame key).mpr (.inr ((hstring key).mpr (.inr hhidden)))⟩
  · rintro ⟨hplain, hhidden⟩ key
    constructor
    · rintro (hfile | hname)
      · exact .inl hfile
      · exact ((hleading key).mp hname).elim (hplain key) fun hboth =>
          .inr ((hstring key).mpr (.inl hboth))
    · rintro (hfile | hname)
      · exact .inl hfile
      · exact ((hstring key).mp hname).elim (fun hboth => .inr ((hleading key).mpr (.inr hboth)))
          (hhidden key)

/-! ## Two ways to write a name -/

section Samples

open Document

/-- The declaration of a module under a name of three characters. -/
def moduleDocument (kind name : String) : Document where
  text := "declare module " ++ name ++ " \x7b\x7d"
  root :=
    part "program" 0 21 []
      [part "ambient_declaration" 0 21 []
        [mark "declare" 0 7,
          part "module" 8 21 []
            [mark "module" 8 14, part kind 15 18 ["name"] [],
              part "statement_block" 19 21 ["body"] [mark "\x7b" 19 20, mark "\x7d" 20 21]]]]

/-- Every path leads to such a declaration. -/
def moduleReader (kind name : String) : Reader := fun _ => .ok (moduleDocument kind name)

def lenientConfig : Config := { root := ⟨"/w"⟩, parser := { rejectsFaults := false } }

def declarationPaths : List Path := [⟨"/w/a.d.ts"⟩]

theorem exists_snapshot_moduleReader (kind name : String) :
    ∃ s, lenientConfig.snapshot (moduleReader kind name) declarationPaths = .ok s := by
  refine ⟨_, snapshot_eq_ok_iff.mpr ⟨by decide, fun path _ => ⟨?_, fun hrejected => ?_⟩, rfl⟩⟩
  · rintro ⟨cause, hcause⟩
    cases hcause
  · exact absurd hrejected.1 (by decide)

theorem not_names_of_length {reader : Reader} {names : Document → List Node}
    (h : (names (reader.documentAt ⟨"/w/a.d.ts"⟩)).length = 0) (key : ModuleKey) :
    ¬ reader.Names declarationPaths names key := by
  rintro ⟨path, hpath, -, name, hname, -⟩
  obtain rfl := List.mem_singleton.mp hpath
  rw [List.length_eq_zero_iff.mp h] at hname
  cases hname

/-- A module that is declared by a string is hoisted. -/
theorem snapshot_hoists_string : lenientConfig.hoistsAmbientModules = true ∧
    (moduleReader "string" "\"x\"").Names declarationPaths stringNames "x" ∧
    ∃ s, lenientConfig.snapshot (moduleReader "string" "\"x\"") declarationPaths = .ok s ∧
      s.Hoists (lenientConfig.fileKeys declarationPaths)
        ((moduleReader "string" "\"x\"").Names declarationPaths stringNames) := by
  obtain ⟨s, hs⟩ := exists_snapshot_moduleReader "string" "\"x\""
  refine ⟨rfl, by decide +kernel, s, hs, (snapshot_hoists rfl hs).2.mpr ⟨?_, ?_⟩⟩
  · exact fun key hplain => absurd hplain (not_names_of_length (by decide +kernel) key)
  · exact fun key hhidden => absurd hhidden (not_names_of_length (by decide +kernel) key)

/-- A module that is declared by an identifier is hoisted too. -/
theorem not_hoists_identifier :
    ∃ s, lenientConfig.snapshot (moduleReader "identifier" "Foo") declarationPaths = .ok s ∧
      "Foo" ∈ s.resources.keys ∧
      ¬ s.Hoists (lenientConfig.fileKeys declarationPaths)
        ((moduleReader "identifier" "Foo").Names declarationPaths stringNames) := by
  obtain ⟨s, hs⟩ := exists_snapshot_moduleReader "identifier" "Foo"
  have hread : (moduleReader "identifier" "Foo").Names declarationPaths leadingNames "Foo" := by
    decide +kernel
  have hkey := (((hoists_snapshot_iff rfl hs).mpr fun _ => Iff.rfl).mem_keys_iff "Foo").mpr (.inr hread)
  refine ⟨s, hs, hkey, fun hhoists => ?_⟩
  have hnot : "Foo" ∉ lenientConfig.fileKeys declarationPaths ∧
      ¬ (moduleReader "identifier" "Foo").Names declarationPaths stringNames "Foo" := by
    decide +kernel
  exact ((hhoists.mem_keys_iff "Foo").mp hkey).elim hnot.1 hnot.2

end Samples

end Config

end ExportIndex
