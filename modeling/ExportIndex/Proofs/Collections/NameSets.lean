import ExportIndex.NameSet
import Mathlib.Data.List.Induction

/-!
# Name sets from lists

A name set that is filled from a list keeps every name at its first place.
-/

namespace ExportIndex

theorem eraseDups_concat {α : Type u} [DecidableEq α] (items : List α) (item : α) :
    (items ++ [item]).eraseDups =
      if item ∈ items then items.eraseDups else items.eraseDups ++ [item] := by
  rw [List.eraseDups_append]
  by_cases hmem : item ∈ items <;> simp [List.removeAll, List.eraseDups_cons, hmem]

/-- Items that came before do not count again. -/
theorem eraseDups_append_of_subset {α : Type u} [DecidableEq α] {items others : List α}
    (h : others ⊆ items) : (items ++ others).eraseDups = items.eraseDups := by
  have hnone : others.removeAll items = [] := by
    simpa [List.removeAll, List.filter_eq_nil_iff] using fun item hitem => h hitem
  rw [List.eraseDups_append, hnone, List.eraseDups_nil, List.append_nil]

/-- Whether repetitions go earlier or later makes no difference. -/
theorem eraseDups_eraseDups_append {α : Type u} [DecidableEq α] (items others : List α) :
    (items.eraseDups ++ others).eraseDups = (items ++ others).eraseDups := by
  induction others using List.reverseRecOn with
  | nil =>
      induction items using List.reverseRecOn with
      | nil => rfl
      | append_singleton items item ih =>
          rw [List.append_nil, List.append_nil] at ih ⊢
          rw [eraseDups_concat]
          by_cases hmem : item ∈ items <;> simp [eraseDups_concat, hmem, ih]
  | append_singleton others other ih =>
      rw [← List.append_assoc, ← List.append_assoc, eraseDups_concat, eraseDups_concat, ih]
      simp only [List.mem_append, List.mem_eraseDups]

theorem eraseDups_append_append_of_subset {α : Type u} [DecidableEq α] {items others : List α}
    (h : others ⊆ items) (rest : List α) :
    (items ++ (others ++ rest)).eraseDups = (items ++ rest).eraseDups := by
  rw [← List.append_assoc, ← eraseDups_eraseDups_append, eraseDups_append_of_subset h,
    eraseDups_eraseDups_append]

namespace NameSet

theorem toList_ofList (names : List String) : (ofList names).toList = names.eraseDups := by
  induction names using List.reverseRecOn with
  | nil => rfl
  | append_singleton rest name ih =>
      have hinsert : ofList (rest ++ [name]) = (ofList rest).insert name := by
        rw [ofList, insertAll, List.foldl_append]
        rfl
      rw [hinsert, toList_insert, ih, eraseDups_concat]
      simp only [List.mem_eraseDups]

theorem toList_insertAll {s : NameSet} {names : List String} (h : (s.toList ++ names).Nodup) :
    (s.insertAll names).toList = s.toList ++ names := by
  induction names generalizing s with
  | nil => simp [insertAll]
  | cons name rest ih =>
      have hfresh : name ∉ s.toList := by
        intro hmem
        exact (List.nodup_append.mp h).2.2 name hmem name List.mem_cons_self rfl
      have hinsert : (s.insert name).toList = s.toList ++ [name] := by
        rw [toList_insert, if_neg hfresh]
      have hnodup : ((s.insert name).toList ++ rest).Nodup := by simpa [hinsert] using h
      have hrest := ih hnodup
      rw [hinsert, List.append_assoc] at hrest
      exact hrest

theorem ofList_toList (s : NameSet) : ofList s.toList = s := by
  have hlist : (ofList s.toList).toList = s.toList := by
    have hnodup : (empty.toList ++ s.toList).Nodup := by simpa [empty] using s.nodup
    simpa [ofList, empty] using toList_insertAll hnodup
  cases s
  cases hset : ofList _
  simp_all

/-- A set that is filled from two lists in turn is filled from both. -/
theorem ofList_append (names others : List String) :
    ofList (names ++ others) = (ofList names).insertAll others :=
  List.foldl_append

/-- The names of a union are those of the first set and then those that the other one adds. -/
theorem union_eq_ofList (s other : NameSet) : s.union other = ofList (s.toList ++ other.toList) := by
  rw [ofList_append, ofList_toList, union]

theorem union_of_subset {s other : NameSet} (h : other.toList ⊆ s.toList) : s.union other = s := by
  have hinsert : ∀ name ∈ s.toList, s.insert name = s := fun _ hname => dif_pos hname
  have hall : ∀ names ⊆ s.toList, s.insertAll names = s := by
    intro names
    induction names with
    | nil => exact fun _ => rfl
    | cons name rest ih =>
        intro hnames
        obtain ⟨hname, hrest⟩ := List.cons_subset.mp hnames
        rw [insertAll, List.foldl_cons, hinsert name hname]
        exact ih hrest
  exact hall _ h

end NameSet

end ExportIndex
