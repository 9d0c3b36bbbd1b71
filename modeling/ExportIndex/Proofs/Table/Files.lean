import ExportIndex.Proofs.Table.Modules
import Mathlib.Data.List.Perm.Basic

/-!
# Tables of files

Without hoisting, resources with distinct keys become the modules of a table one by one, in order, each
resolved against the keys of all. What the table holds under a key does not depend on their order.
-/

namespace ExportIndex

namespace ModuleSources

variable {resources : List Resource} (hids : (resources.map Resource.identifier).Nodup)

theorem isKnown_ofResources : (ofResources false resources).isKnown =
    fun key => decide (key ∈ resources.map Resource.identifier) := by
  simp [ModuleTable.isKnown_eq, ModuleTable.keys_build_eq, hoistedNames]

include hids

theorem entries_filesOf :
    (filesOf resources).entries = resources.map fun r => (r.identifier, r) :=
  Registry.entries_ofList _ (by simpa [Function.comp_def] using hids)

theorem entries_ofResources :
    (ofResources false resources).entries = resources.map fun r =>
      (r.identifier, ModuleEntry.ofResource
        (fun key => decide (key ∈ resources.map Resource.identifier)) none r.identifier r) := by
  have hfiles : (ofResources false resources).files.entries =
      resources.map fun r => (r.identifier, r) := entries_filesOf hids
  have hambients : (ofResources false resources).ambients.entries = [] := rfl
  simp [entries, Registry.mapValues, hfiles, hambients, isKnown_ofResources]

end ModuleSources

namespace ModuleTable

variable {resources permuted : List Resource} (hids : (resources.map Resource.identifier).Nodup)

include hids

theorem entries_build :
    (build false resources).modules.entries = resources.map fun r =>
      (r.identifier, ModuleEntry.ofResource
        (fun key => decide (key ∈ resources.map Resource.identifier)) none r.identifier r) := by
  rw [entries_build_eq, ModuleSources.entries_ofResources hids]

theorem keys_build : (build false resources).keys = resources.map Resource.identifier := by
  simp [keys, Registry.keys, entries_build hids]

/-- Files in another order make the same modules. -/
theorem get?_build_perm (hperm : resources.Perm permuted) (key : ModuleKey) :
    (build false permuted).get? key = (build false resources).get? key := by
  have hids' := (hperm.map Resource.identifier).nodup_iff.mp hids
  have hknown : ∀ key, key ∈ permuted.map Resource.identifier ↔
      key ∈ resources.map Resource.identifier := fun _ =>
    (hperm.map Resource.identifier).mem_iff.symm
  apply Option.ext
  intro entry
  rw [get?, get?, Registry.get?_eq_some_iff, Registry.get?_eq_some_iff, entries_build hids,
    entries_build hids']
  simp only [hknown]
  exact (hperm.map _).mem_iff.symm

end ModuleTable

end ExportIndex
