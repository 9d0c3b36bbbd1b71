import Mathlib.Data.List.Forall2

/-!
# Agreement position by position

What is looked up in two places may agree without being the same.
-/

namespace ExportIndex

variable {α : Type u} {β : Type v} {γ : Type w} {R S : α → β → Prop} {x? : Option α} {y? : Option β}
  {xs : List α} {ys : List β}

theorem rel_imp (himp : ∀ x y, R x y → S x y) (h : Option.Rel R x? y?) : Option.Rel S x? y? := by
  cases h with
  | none => exact .none
  | some hxy => exact .some (himp _ _ hxy)

theorem exists_of_rel (h : Option.Rel R x? y?) {x : α} (hx : x? = some x) :
    ∃ y, y? = some y ∧ R x y := by
  cases h with
  | none => cases hx
  | some hxy =>
      obtain rfl := Option.some.inj hx
      exact ⟨_, rfl, hxy⟩

theorem option_eq_of_rel {other? : Option α} (h : Option.Rel (fun x other => other = x) x? other?) :
    other? = x? := by
  cases h with
  | none => rfl
  | some heq => exact congrArg some heq

theorem option_map_eq_of_rel {f : α → γ} {g : β → γ} (h : Option.Rel (fun x y => f x = g y) x? y?) :
    x?.map f = y?.map g := by
  cases h with
  | none => rfl
  | some heq => exact congrArg some heq

theorem map_eq_of_rel {f : α → γ} {g : β → γ}
    (h : ∀ index : Nat, Option.Rel (fun x y => f x = g y) xs[index]? ys[index]?) : xs.map f = ys.map g := by
  apply List.ext_getElem?
  intro index
  rw [List.getElem?_map, List.getElem?_map]
  exact option_map_eq_of_rel (h index)

theorem map_zipIdx_eq_of_rel (xs : List α) (ys : List β) {f : α → Nat → γ} {g : β → Nat → γ}
    (h : ∀ index, Option.Rel (fun x y => f x index = g y index) xs[index]? ys[index]?) :
    (xs.zipIdx.map fun (x, index) => f x index) = ys.zipIdx.map fun (y, index) => g y index := by
  apply List.ext_getElem?
  intro index
  rw [List.getElem?_map, List.getElem?_map, List.getElem?_zipIdx, List.getElem?_zipIdx, Nat.zero_add,
    Option.map_map, Option.map_map]
  exact option_map_eq_of_rel (h index)

theorem map_eq_iff_forall₂ {f : α → γ} {g : β → γ} :
    xs.map f = ys.map g ↔ List.Forall₂ (fun x y => f x = g y) xs ys := by
  rw [← List.forall₂_eq_eq_eq, List.forall₂_map_left_iff, List.forall₂_map_right_iff]

/-- In a list whose entries come in an order, the entry found is the first in this order. -/
theorem find?_eq_some_iff_of_pairwise {before : α → α → Prop} {p : α → Bool} {x : α}
    (hasymm : ∀ x y, before x y → ¬ before y x) (hpairwise : xs.Pairwise before) :
    xs.find? p = some x ↔ x ∈ xs ∧ p x = true ∧ ∀ y ∈ xs, p y = true → y = x ∨ before x y := by
  have hfirst : ∀ x, xs.find? p = some x → x ∈ xs ∧ p x = true ∧
      ∀ y ∈ xs, p y = true → y = x ∨ before x y := by
    intro x h
    refine ⟨List.mem_of_find?_eq_some h, List.find?_some h, fun y hy hpy => ?_⟩
    obtain ⟨-, earlier, later, rfl, hearlier⟩ := List.find?_eq_some_iff_append.mp h
    rcases List.mem_append.mp hy with hy | hy
    · simpa [hpy] using hearlier y hy
    · rcases List.mem_cons.mp hy with rfl | hy
      · exact .inl rfl
      · exact .inr ((List.pairwise_cons.mp (List.pairwise_append.mp hpairwise).2.1).1 y hy)
  refine ⟨hfirst x, fun ⟨hx, hpx, hbefore⟩ => ?_⟩
  obtain ⟨y, hy⟩ := Option.isSome_iff_exists.mp (List.find?_isSome.mpr ⟨x, hx, hpx⟩)
  obtain ⟨hmem, hpy, hfirstY⟩ := hfirst y hy
  rcases hbefore y hmem hpy with rfl | hxy
  · exact hy
  · rcases hfirstY x hx hpx with rfl | hyx
    · exact hy
    · exact absurd hyx (hasymm _ _ hxy)

theorem pairwise_zipIdx (xs : List α) : xs.zipIdx.Pairwise fun first second => first.2 < second.2 := by
  rw [← List.pairwise_map (f := Prod.snd) (R := (· < ·)), List.zipIdx_map_snd]
  exact List.pairwise_lt_range'

/-- What is found first in a list is found at some position and at no earlier one. -/
theorem findSome?_zipIdx_eq_some_iff {f : α × Nat → Option γ} {found : γ} :
    xs.zipIdx.findSome? f = some found ↔
      ∃ (index : Nat) (x : α), xs[index]? = some x ∧ f (x, index) = some found ∧
        ∀ earlier < index, ∀ x', xs[earlier]? = some x' → f (x', earlier) = none := by
  have hget : ∀ {index : Nat} {x : α} {position : Nat}, xs.zipIdx[index]? = some (x, position) ↔
      xs[index]? = some x ∧ index = position := by
    intro index x position
    simp [List.getElem?_zipIdx]
  rw [List.findSome?_eq_some_iff]
  constructor
  · rintro ⟨before, ⟨x, position⟩, after, hsplit, hfound, hnone⟩
    have hat : xs.zipIdx[before.length]? = some (x, position) := by simp [hsplit]
    obtain ⟨hx, rfl⟩ := hget.mp hat
    refine ⟨_, x, hx, hfound, fun earlier hearlier x' hx' => hnone (x', earlier) ?_⟩
    have hmem := hget.mpr ⟨hx', rfl⟩
    rw [hsplit, List.getElem?_append_left hearlier] at hmem
    exact List.mem_of_getElem? hmem
  · rintro ⟨index, x, hx, hfound, hnone⟩
    obtain ⟨hindex, heq⟩ := List.getElem?_eq_some_iff.mp (hget.mpr ⟨hx, rfl⟩)
    refine ⟨xs.zipIdx.take index, (x, index), xs.zipIdx.drop (index + 1), ?_, hfound, ?_⟩
    · rw [← heq, List.getElem_cons_drop, List.take_append_drop]
    · rintro ⟨x', earlier⟩ hmem
      obtain ⟨position, hposition⟩ := List.mem_iff_getElem?.mp hmem
      obtain ⟨hlt, hposition⟩ : position < index ∧ xs.zipIdx[position]? = some (x', earlier) := by
        simpa [List.getElem?_take] using hposition
      obtain ⟨hx', rfl⟩ := hget.mp hposition
      exact hnone _ hlt x' hx'

/-! ## Positions of entries -/

/-- The positions at which a list has entries with a property, from first to last and each once. -/
structure PositionsOf (p : α → Prop) (xs : List α) (positions : List Nat) : Prop where
  ascending : positions.Pairwise (· < ·)
  mem_iff : ∀ index, index ∈ positions ↔ ∃ h : index < xs.length, p xs[index]

/-- The positions of the entries of a list that pass a test. -/
def positionsWhere (p : α → Bool) (xs : List α) : List Nat := (xs.zipIdx.filter (p ·.1)).map Prod.snd

theorem positionsOf_positionsWhere (p : α → Bool) (xs : List α) :
    PositionsOf (p · = true) xs (positionsWhere p xs) where
  ascending := by
    have hsublist : (positionsWhere p xs).Sublist (xs.zipIdx.map Prod.snd) := List.filter_sublist.map _
    rw [List.zipIdx_map_snd] at hsublist
    exact (List.pairwise_lt_range').sublist hsublist
  mem_iff index := by
    simp [positionsWhere, List.mem_zipIdx_iff_getElem?, List.getElem?_eq_some_iff]

/-- What stands at the positions of the entries that pass a test are these entries. -/
theorem filterMap_positionsWhere (p : α → Bool) (xs : List α) :
    (positionsWhere p xs).filterMap (xs[·]?) = xs.filter p := by
  have hfound : ∀ found ∈ xs.zipIdx.filter (p ·.1), xs[found.2]? = some found.1 := fun _ hfound =>
    List.mem_zipIdx_iff_getElem?.mp (List.mem_filter.mp hfound).1
  have hfirst := List.filter_map (p := p) (f := Prod.fst) (l := xs.zipIdx)
  rw [List.zipIdx_map_fst] at hfirst
  rw [hfirst, positionsWhere, List.filterMap_map, ← List.filterMap_eq_map]
  exact List.filterMap_congr hfound

end ExportIndex
