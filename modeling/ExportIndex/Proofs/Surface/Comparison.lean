import ExportIndex.Proofs.Surface.Listing
import Mathlib.Data.List.Perm.Subperm

/-!
# Comparing surfaces

Surfaces are compared by what they list, whatever the order. A surface within another lists no more
bindings, and as many only if both list the same.
-/

namespace ExportIndex.Surface

/-- Whatever a surface lists under a name or as its default, another lists there too. -/
def Within (s t : Surface) : Prop :=
  ∀ name binding, binding ∈ s.bindings name → binding ∈ t.bindings name

/-- Two surfaces list the same bindings under every name, and agree in all else. -/
structure Agrees (s t : Surface) : Prop where
  bindings : ∀ name binding, binding ∈ s.bindings name ↔ binding ∈ t.bindings name
  default? : s.default? = t.default?
  assigned? : s.assigned? = t.assigned?
  conflict : s.conflict = t.conflict

theorem Within.refl (s : Surface) : s.Within s := fun _ _ h => h

theorem within_empty (s : Surface) : empty.Within s := by
  intro name binding hmem
  simp at hmem

theorem Agrees.refl (s : Surface) : s.Agrees s where
  bindings _ _ := Iff.rfl
  default? := rfl
  assigned? := rfl
  conflict := rfl

theorem Within.default?_eq {s t : Surface} (h : s.Within t) (h' : t.Within s) :
    s.default? = t.default? := by
  apply Option.ext
  intro binding
  rw [← mem_bindings_default, ← mem_bindings_default]
  exact ⟨h defaultName binding, h' defaultName binding⟩

/-- Surfaces that lie within each other list the same. -/
theorem Within.agrees {s t : Surface} (h : s.Within t) (h' : t.Within s)
    (hassigned : s.assigned? = t.assigned?) (hconflict : s.conflict = t.conflict) : s.Agrees t where
  bindings name binding := ⟨h name binding, h' name binding⟩
  default? := h.default?_eq h'
  assigned? := hassigned
  conflict := hconflict

section Count

variable {s t : Surface} (hs : s.WellFormed) (ht : t.WellFormed) (h : s.Within t)

include hs ht h

theorem Within.listed_subset : s.listed ⊆ t.listed := by
  intro offer hoffer
  exact (mem_listed_iff ht).mpr (h _ _ ((mem_listed_iff hs).mp hoffer))

theorem Within.bindingCount_le : s.bindingCount ≤ t.bindingCount := by
  rw [bindingCount_eq_length_listed, bindingCount_eq_length_listed]
  exact (List.subperm_of_subset (nodup_listed hs) (h.listed_subset hs ht)).length_le

/-- A surface within another of no larger count lists all of it. -/
theorem Within.of_bindingCount_le (hcount : t.bindingCount ≤ s.bindingCount) : t.Within s := by
  rw [bindingCount_eq_length_listed, bindingCount_eq_length_listed] at hcount
  have hperm := (List.subperm_of_subset (nodup_listed hs)
    (h.listed_subset hs ht)).perm_of_length_le hcount
  intro name binding hmem
  have hlisted : (⟨name, binding⟩ : Offer) ∈ s.listed :=
    hperm.mem_iff.mpr ((mem_listed_iff ht).mpr hmem)
  exact (mem_listed_iff hs).mp hlisted

end Count

end ExportIndex.Surface
