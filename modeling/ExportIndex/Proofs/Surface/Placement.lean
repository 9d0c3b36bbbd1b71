import ExportIndex.Proofs.Collections.Registries
import ExportIndex.Surface

/-!
# Where the items of a module stand

The items of a module are kept in lists and under positions, beside the statements that they come from.
Each declaration and each nested resource has its item at its own position. A statement has one exactly
if it names a known module and gives it a name as a whole.
-/

namespace ExportIndex.ModuleEntry

/-! ## The items that statements give -/

theorem starDeclaration?_eq_some_iff {statement : Export × Option ModuleKey} {item : Declaration} :
    starDeclaration? statement = some item ↔ ∃ specifier name span target,
      statement = (.all specifier (some name) span, some target) ∧
        item = .ofModule { name, exported := true, target, span } := by
  constructor
  · intro h
    unfold starDeclaration? at h
    split at h
    next specifier name span target => exact ⟨specifier, name, span, target, rfl, (Option.some.inj h).symm⟩
    next => cases h
  · rintro ⟨specifier, name, span, target, rfl, rfl⟩
    rfl

/-- The import statement binds a name to the imported module as a whole. -/
def ImportsWhole (i : Import) (name : String) (span : Span) : Prop :=
  (∃ specifier isTypeOnly, i = .star specifier name isTypeOnly span) ∨
    ∃ specifier, i = .required specifier name span

theorem moduleDeclaration?_eq_some_iff {statement : Import × Option ModuleKey} {item : Declaration} :
    moduleDeclaration? statement = some item ↔ ∃ i name span target,
      statement = (i, some target) ∧ ImportsWhole i name span ∧
        item = .ofModule { name, exported := true, target, span } := by
  constructor
  · intro h
    unfold moduleDeclaration? at h
    split at h
    next i target =>
      obtain ⟨name, hname, rfl⟩ := Option.map_eq_some_iff.mp h
      refine ⟨i, name, i.span, target, rfl, ?_, rfl⟩
      cases i with
      | star specifier localName isTypeOnly span =>
          obtain rfl := Option.some.inj hname
          exact .inl ⟨specifier, isTypeOnly, rfl⟩
      | required specifier localName span =>
          obtain rfl := Option.some.inj hname
          exact .inr ⟨specifier, rfl⟩
      | bare _ _ | named _ _ _ _ _ | ofDefault _ _ _ => cases hname
    next => cases h
  · rintro ⟨_, name, span, target, rfl, ⟨_, _, rfl⟩ | ⟨_, rfl⟩, rfl⟩
    · rfl
    · rfl

/-! ## The items of a module -/

theorem filled_ofTargets (key : ModuleKey) (resource : Resource)
    (exportTargets importTargets : List (Option ModuleKey)) (declaredIn? : Option ModuleKey) :
    (ofTargets key resource exportTargets importTargets declaredIn?).Filled :=
  rfl

namespace Filled

variable {entry : ModuleEntry} (h : entry.Filled)

include h

theorem locals_eq : entry.locals = entry.resource.declarations := congrArg locals h

theorem nested_eq : entry.nested = entry.resource.resources.map nestedDeclaration := congrArg nested h

theorem whole?_eq :
    entry.whole? = wholeDeclaration? entry.key entry.resource entry.declaredIn? :=
  congrArg whole? h

/-- An item stands at the position of each `export * as` with a known target, and of no other export. -/
theorem get?_starExports_eq_some_iff {index : Nat} {item : Declaration} :
    entry.starExports.get? index = some item ↔ ∃ specifier name span target,
      entry.resource.exports[index]? = some (.all specifier (some name) span) ∧
      entry.exportTargets[index]? = some (some target) ∧
      item = .ofModule { name, exported := true, target, span } := by
  have heq : entry.starExports =
      .ofPositions starDeclaration? (entry.resource.exports.zip entry.exportTargets) :=
    congrArg starExports h
  rw [heq, Registry.get?_ofPositions, Option.bind_eq_some_iff]
  constructor
  · rintro ⟨statement, hstatement, hitem⟩
    obtain ⟨specifier, name, span, target, rfl, rfl⟩ := starDeclaration?_eq_some_iff.mp hitem
    obtain ⟨hexport, htarget⟩ := List.getElem?_zip_eq_some.mp hstatement
    exact ⟨specifier, name, span, target, hexport, htarget, rfl⟩
  · rintro ⟨specifier, name, span, target, hexport, htarget, rfl⟩
    exact ⟨(.all specifier (some name) span, some target),
      List.getElem?_zip_eq_some.mpr ⟨hexport, htarget⟩, rfl⟩

/-- An item stands at the position of each import of a whole module with a known target, and of no other
import. -/
theorem get?_moduleImports_eq_some_iff {index : Nat} {item : Declaration} :
    entry.moduleImports.get? index = some item ↔ ∃ i name span target,
      entry.resource.imports[index]? = some i ∧ ImportsWhole i name span ∧
      entry.importTargets[index]? = some (some target) ∧
      item = .ofModule { name, exported := true, target, span } := by
  have heq : entry.moduleImports =
      .ofPositions moduleDeclaration? (entry.resource.imports.zip entry.importTargets) :=
    congrArg moduleImports h
  rw [heq, Registry.get?_ofPositions, Option.bind_eq_some_iff]
  constructor
  · rintro ⟨statement, hstatement, hitem⟩
    obtain ⟨i, name, span, target, rfl, hwhole, rfl⟩ := moduleDeclaration?_eq_some_iff.mp hitem
    obtain ⟨himport, htarget⟩ := List.getElem?_zip_eq_some.mp hstatement
    exact ⟨i, name, span, target, himport, hwhole, htarget, rfl⟩
  · rintro ⟨i, name, span, target, himport, hwhole, htarget, rfl⟩
    exact ⟨_, List.getElem?_zip_eq_some.mpr ⟨himport, htarget⟩,
      moduleDeclaration?_eq_some_iff.mpr ⟨i, name, span, target, rfl, hwhole, rfl⟩⟩

/-- An `export * as` statement with a known target has an item. -/
theorem isSome_item?_starExport {index : Nat} {specifier name : String} {span : Span}
    {target : ModuleKey} (he : entry.resource.exports[index]? = some (.all specifier (some name) span))
    (htarget : entry.exportTargets[index]? = some (some target)) :
    (entry.item? (.starExport index)).isSome := by
  have hitem := h.get?_starExports_eq_some_iff.mpr ⟨specifier, name, span, target, he, htarget, rfl⟩
  rw [item?, hitem, Option.isSome_some]

/-- An import of a whole module with a known target has an item. -/
theorem isSome_item?_moduleImport {index : Nat} {i : Import} {name : String} {span : Span}
    {target : ModuleKey} (hi : entry.resource.imports[index]? = some i) (hwhole : ImportsWhole i name span)
    (htarget : entry.importTargets[index]? = some (some target)) :
    (entry.item? (.moduleImport index)).isSome := by
  have hitem := h.get?_moduleImports_eq_some_iff.mpr ⟨i, name, span, target, hi, hwhole, htarget, rfl⟩
  rw [item?, hitem, Option.isSome_some]

/-- No declaration is without its item. -/
theorem placedDeclarations_eq : entry.placedDeclarations = entry.resource.declarations.zipIdx := by
  rw [placedDeclarations, h.locals_eq, List.map_fst_zip (Nat.le_refl _)]

/-- No nested resource is without its item. -/
theorem placedResources_eq : entry.placedResources = entry.resource.resources.zipIdx := by
  have hlength : entry.resource.resources.length ≤ entry.nested.length := by simp [h.nested_eq]
  rw [placedResources, List.map_fst_zip hlength]

theorem assignedLocals_eq (targets : List AssignedTarget) :
    entry.assignedLocals targets = entry.resource.assignedDeclarations targets := by
  rw [assignedLocals, h.locals_eq]
  apply List.filterMap_congr
  intro target _
  cases target <;> rfl

end Filled

end ExportIndex.ModuleEntry
