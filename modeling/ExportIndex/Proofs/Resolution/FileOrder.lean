import ExportIndex.Proofs.Resolution.Completeness
import ExportIndex.Proofs.Table.Files

/-!
# The order of files

Where no export clause gives the default slot, what a module lists is settled by the modules of the
table alone. The order of the files decides in which order modules are computed, and through that every
surface on the way, but not what the surfaces list in the end.
-/

namespace ExportIndex.ModuleTable

theorem Derivable.of_get?_eq {table other : ModuleTable}
    (hget : ∀ key, other.get? key = table.get? key) {key : ModuleKey} {name : String}
    {binding : Binding} (h : table.Derivable key name binding) : other.Derivable key name binding := by
  induction h with
  | own hentry hassigned hname hexports =>
      exact .own ((hget _).trans hentry) hassigned hname hexports
  | passed hentry hassigned hname hpasses _ ih =>
      exact .passed ((hget _).trans hentry) hassigned hname hpasses ih
  | ofDefault hentry hassigned hdefault =>
      exact .ofDefault ((hget _).trans hentry) hassigned hdefault

section SameModules

variable {table other : ModuleTable} (hget : ∀ key, other.get? key = table.get? key)
  (hclauses : ∀ entry ∈ table.entries, entry.ClausesWithin (· ≠ defaultName))

include hget

theorem mem_keys_iff_of_get?_eq {key : ModuleKey} : key ∈ other.keys ↔ key ∈ table.keys := by
  have hmodules : other.modules.get? key = table.modules.get? key := hget key
  rw [keys, keys, Registry.mem_keys_iff, Registry.mem_keys_iff, hmodules]

include hclauses

theorem clausesWithin_of_get?_eq :
    ∀ entry ∈ other.entries, entry.ClausesWithin (· ≠ defaultName) := by
  intro entry hentry
  obtain ⟨key, hkey⟩ := mem_entries_iff.mp hentry
  exact hclauses entry (mem_entries_of_get? ((hget key).symm.trans hkey))

theorem within_of_get?_eq (key : ModuleKey) :
    (table.resolve.source key).Within (other.resolve.source key) := by
  intro name binding hbinding
  -- a derivation looks modules up, so that it holds in the other table as well
  have hderivable := ((keeps_derivable hclauses).resolve key).2 name binding hbinding
  exact (hderivable.of_get?_eq hget).mem_bindings (clausesWithin_of_get?_eq hget hclauses)

/-- Tables with the same modules, in whatever order, are resolved to surfaces that list the same. -/
theorem agrees_of_get?_eq {key : ModuleKey} (hkey : key ∈ table.keys) :
    (table.resolve.source key).Agrees (other.resolve.source key) := by
  obtain ⟨entry, hentry⟩ := Registry.mem_keys_iff.mp hkey
  have hclauses' := clausesWithin_of_get?_eq hget hclauses
  have hsettled := settled_resolve hclauses key hkey entry hentry
  have hsettled' := settled_resolve hclauses' key ((mem_keys_iff_of_get?_eq hget).mpr hkey) entry
    ((hget key).trans hentry)
  have hassigned := entry.assigned?_surface table.resolve.source
  have hassigned' := entry.assigned?_surface other.resolve.source
  refine (within_of_get?_eq hget hclauses key).agrees
    (within_of_get?_eq (fun key => (hget key).symm) hclauses' key) ?_ ?_
  · rw [← hsettled.assigned?, ← hsettled'.assigned?, hassigned.1, hassigned'.1]
  · rw [← hsettled.conflict, ← hsettled'.conflict, hassigned.2, hassigned'.2]

end SameModules

/-- The order of files with distinct keys does not matter for what their modules export, in cycles
neither, as long as no export clause gives the default slot: every module lists the same bindings under
every name and has the same default binding, assigned value and conflict flag. -/
theorem resolve_build_perm {resources permuted : List Resource} (hperm : resources.Perm permuted)
    (hids : (resources.map Resource.identifier).Nodup)
    (hclauses : ∀ r ∈ resources, ∀ e ∈ r.exports, ∀ s ∈ e.specifiers, s.localName ≠ defaultName) :
    (build false resources).keys.Perm (build false permuted).keys ∧
    ∀ key ∈ (build false resources).keys,
      (build false permuted).get? key = (build false resources).get? key ∧
      ∃ surface surface', (build false resources).resolve.get? key = some surface ∧
        (build false permuted).resolve.get? key = some surface' ∧ surface.Agrees surface' := by
  have hids' := (hperm.map Resource.identifier).nodup_iff.mp hids
  have hget := get?_build_perm hids hperm
  have hclauses' : ∀ entry ∈ (build false resources).entries,
      entry.ClausesWithin (· ≠ defaultName) := by
    intro entry hentry
    rw [entries, Registry.values, entries_build hids] at hentry
    obtain ⟨_, hpair, rfl⟩ := List.mem_map.mp hentry
    obtain ⟨r, hr, rfl⟩ := List.mem_map.mp hpair
    exact hclauses r hr
  constructor
  · rw [keys_build hids, keys_build hids']
    exact hperm.map Resource.identifier
  · intro key hkey
    exact ⟨hget key, _, _, get?_resolve _ hkey,
      get?_resolve _ ((mem_keys_iff_of_get?_eq hget).mpr hkey), agrees_of_get?_eq hget hclauses' hkey⟩

/-- The files of two modules that export from each other. -/
def barrelFiles : List Resource :=
  [workspaceFile "a" [exportedConstant "x"] [] [.all "./b" none default],
    workspaceFile "b" [] []
      [.named (some "./a") [⟨"x", some "y"⟩] false default, .all "./a" none default]]

theorem resolve_build_reverse :
    (build false barrelFiles).graph.components ≠ (build false barrelFiles.reverse).graph.components ∧
    (barrelFiles.map Resource.identifier).Nodup ∧
    (∀ r ∈ barrelFiles, ∀ e ∈ r.exports, ∀ s ∈ e.specifiers, s.localName ≠ defaultName) ∧
    ∀ key ∈ (build false barrelFiles).keys, ∃ surface surface',
      (build false barrelFiles).resolve.get? key = some surface ∧
      (build false barrelFiles.reverse).resolve.get? key = some surface' ∧
      surface.Agrees surface' := by
  have hids : (barrelFiles.map Resource.identifier).Nodup := by decide +kernel
  have hclauses : ∀ r ∈ barrelFiles, ∀ e ∈ r.exports, ∀ s ∈ e.specifiers,
      s.localName ≠ defaultName := by
    decide +kernel
  refine ⟨by decide +kernel, hids, hclauses, fun key hkey => ?_⟩
  exact ((resolve_build_perm (List.reverse_perm barrelFiles).symm hids hclauses).2 key hkey).2

end ExportIndex.ModuleTable
