import ExportIndex.Proofs.Resolution.Bounds

/-!
# The shape of resolved surfaces

Under every name a resolved surface lists something, and no item twice. An `export =` leaves room for
its own value and nothing else, and is in conflict with whatever the module would export under a name.
-/

namespace ExportIndex

namespace ModuleEntry

/-- A module exports something under a name, or would do so without its `export =`: it has an export
statement that is no `export =`, an exported declaration or an exported nested resource. -/
def OffersNames (entry : ModuleEntry) : Prop :=
  (∃ e ∈ entry.resource.exports, e.isAssigned = false) ∨
    (∃ d ∈ entry.resource.declarations, d.exported = true ∧ d.isDefault = false) ∨
      ∃ r ∈ entry.resource.resources, r.exported = true

theorem hasNamedExports_iff (entry : ModuleEntry) :
    entry.hasNamedExports = true ↔ entry.OffersNames := by
  simp [hasNamedExports, OffersNames, or_assoc]

theorem assignedTargets?_eq_none_iff {e : Export} :
    assignedTargets? e = none ↔ e.isAssigned = false := by
  cases e <;> simp [assignedTargets?, Export.isAssigned]

/-- The value of a module is that of its first `export =`, however many follow. -/
theorem assignedValue?_of_split {entry : ModuleEntry} (hfilled : entry.Filled)
    {before after : List Export} {name : String} {targets : List AssignedTarget} {span : Span}
    (hsplit : entry.resource.exports = before ++ .assigned name targets span :: after)
    (hfirst : ∀ e ∈ before, e.isAssigned = false) :
    entry.assignedValue? = some ⟨name, entry.resource.assignedDeclarations targets,
      entry.resource.assignedResources targets⟩ := by
  have hbefore : before.findSome? assignedTargets? = none :=
    List.findSome?_eq_none_iff.mpr fun e he => assignedTargets?_eq_none_iff.mpr (hfirst e he)
  rw [assignedValue?, hsplit, List.findSome?_append, hbefore, Option.none_or, List.findSome?_cons,
    ← hfilled.assignedLocals_eq]
  rfl

theorem assignedValue?_of_not_assigned {entry : ModuleEntry}
    (h : ∀ e ∈ entry.resource.exports, e.isAssigned = false) : entry.assignedValue? = none := by
  have hnone : entry.resource.exports.findSome? assignedTargets? = none :=
    List.findSome?_eq_none_iff.mpr fun e he => assignedTargets?_eq_none_iff.mpr (h e he)
  rw [assignedValue?, hnone, Option.map_none]

/-- A surface has the shape that the statements of its module give it. -/
structure Shapes (entry : ModuleEntry) (s : Surface) : Prop where
  /-- The default slot is no name, and every name lists something and nothing twice. -/
  wellFormed : s.WellFormed
  /-- The first `export =` leaves its own value and nothing else. -/
  of_assigned : ∀ before name targets span after,
    entry.resource.exports = before ++ .assigned name targets span :: after →
    (∀ e ∈ before, e.isAssigned = false) →
      s.named = .empty ∧ s.default? = none ∧
        s.assigned? = some ⟨name, entry.resource.assignedDeclarations targets,
          entry.resource.assignedResources targets⟩ ∧
        (s.conflict = true ↔ entry.OffersNames)
  of_not_assigned : (∀ e ∈ entry.resource.exports, e.isAssigned = false) →
    s.assigned? = none ∧ s.conflict = false

/-- Whatever the surfaces of other modules are, the computed surface has the right shape. -/
theorem shapes_surface {entry : ModuleEntry} (hfilled : entry.Filled) (source : ModuleKey → Surface) :
    entry.Shapes (entry.surface source) where
  wellFormed := entry.wellFormed_surface source
  of_assigned before name targets span after hsplit hfirst := by
    rw [surface_of_assigned (assignedValue?_of_split hfilled hsplit hfirst)]
    exact ⟨rfl, rfl, rfl, entry.hasNamedExports_iff⟩
  of_not_assigned h := by
    obtain ⟨hassigned, hconflict⟩ := entry.assigned?_surface source
    rw [hassigned, hconflict, assignedValue?_of_not_assigned h]
    exact ⟨rfl, rfl⟩

end ModuleEntry

/-- Every module has one surface, in the order of the table, and the surface has the shape that the
statements of the module give it, in cycles too. -/
theorem ModuleTable.resolve_shaped (table : ModuleTable) :
    table.resolve.keys = table.keys ∧
      ∀ key entry, table.get? key = some entry →
        ∃ surface, table.resolve.get? key = some surface ∧ entry.Shapes surface := by
  refine ⟨table.keys_resolve, fun key entry hentry => ?_⟩
  have hkey : key ∈ table.keys := Registry.mem_keys_iff.mpr ⟨entry, hentry⟩
  obtain ⟨seen, hseen⟩ := exists_surface_eq_resolve hentry
  exact ⟨_, get?_resolve table hkey, hseen ▸ ModuleEntry.shapes_surface (filled_of_get? hentry) seen⟩

end ExportIndex
