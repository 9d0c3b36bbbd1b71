import Mathlib.Data.List.Induction
import Mathlib.Data.List.Pairwise

/-!
# Lists without repetitions

What counts as a repetition is told by a relation. An entry is left out if an entry that is listed before it
is in the relation to it.
-/

namespace ExportIndex

variable {α : Type u} {r s : α → α → Bool} {items : List α} {a b : α}

theorem eraseDupsBy_loop_concat (r : α → α → Bool) (items : List α) (item : α) (listed : List α) :
    List.eraseDupsBy.loop r (items ++ [item]) listed =
      if (List.eraseDupsBy.loop r items listed).any (r item) then List.eraseDupsBy.loop r items listed
      else List.eraseDupsBy.loop r items listed ++ [item] := by
  induction items generalizing listed with
  | nil =>
      simp only [List.nil_append, List.eraseDupsBy.loop, List.any_reverse]
      cases listed.any (r item) with
      | true => rfl
      | false => simp
  | cons first rest ih =>
      cases hfirst : listed.any (r first) with
      | true => simpa only [List.cons_append, List.eraseDupsBy.loop, hfirst] using ih listed
      | false => simpa only [List.cons_append, List.eraseDupsBy.loop, hfirst] using ih (first :: listed)

theorem eraseDupsBy_concat (r : α → α → Bool) (items : List α) (item : α) :
    (items ++ [item]).eraseDupsBy r =
      if (items.eraseDupsBy r).any (r item) then items.eraseDupsBy r
      else items.eraseDupsBy r ++ [item] :=
  eraseDupsBy_loop_concat r items item []

theorem eraseDupsBy_sublist (r : α → α → Bool) (items : List α) :
    (items.eraseDupsBy r).Sublist items := by
  induction items using List.reverseRecOn with
  | nil => exact List.Sublist.slnil
  | append_singleton rest item ih =>
      rw [eraseDupsBy_concat]
      split
      · exact ih.trans (List.sublist_append_left rest [item])
      · exact ih.append (List.Sublist.refl [item])

/-- No two entries that are listed repeat each other. -/
theorem pairwise_eraseDupsBy (r : α → α → Bool) (items : List α) :
    (items.eraseDupsBy r).Pairwise fun earlier later => r later earlier = false := by
  induction items using List.reverseRecOn with
  | nil => exact .nil
  | append_singleton rest item ih =>
      rw [eraseDupsBy_concat]
      split
      · exact ih
      next hnew =>
        rw [Bool.not_eq_true, List.any_eq_false] at hnew
        refine List.pairwise_append.mpr ⟨ih, List.pairwise_singleton _ _, ?_⟩
        intro earlier hearlier later hlater
        obtain rfl := List.mem_singleton.mp hlater
        exact Bool.eq_false_iff.mpr (hnew earlier hearlier)

/-- Every entry is listed or repeats one that is. -/
theorem exists_mem_eraseDupsBy (hrefl : ∀ a, r a a = true) (h : a ∈ items) :
    ∃ listed ∈ items.eraseDupsBy r, r a listed = true := by
  induction items using List.reverseRecOn with
  | nil => cases h
  | append_singleton rest item ih =>
      rw [eraseDupsBy_concat]
      rcases List.mem_append.mp h with hrest | hitem
      · obtain ⟨listed, hlisted, hrepeats⟩ := ih hrest
        refine ⟨listed, ?_, hrepeats⟩
        split
        · exact hlisted
        · exact List.mem_append_left _ hlisted
      · obtain rfl := List.mem_singleton.mp hitem
        split
        next hrepeats => exact List.any_eq_true.mp hrepeats
        next => exact ⟨a, List.mem_append_right _ List.mem_cons_self, hrefl a⟩

theorem eraseDupsBy_congr (h : ∀ a ∈ items, ∀ b ∈ items, r a b = s a b) :
    items.eraseDupsBy r = items.eraseDupsBy s := by
  induction items using List.reverseRecOn with
  | nil => rfl
  | append_singleton rest item ih =>
      have hrest := ih fun a ha b hb => h a (List.mem_append_left _ ha) b (List.mem_append_left _ hb)
      have hlisted : ∀ b ∈ rest.eraseDupsBy s, r item b = s item b := fun b hb =>
        h item (List.mem_append_right _ List.mem_cons_self) b
          (List.mem_append_left _ ((eraseDupsBy_sublist s rest).subset hb))
      have hany : (rest.eraseDupsBy s).any (r item) = (rest.eraseDupsBy s).any (s item) := by
        rw [Bool.eq_iff_iff, List.any_eq_true, List.any_eq_true]
        exact exists_congr fun b => and_congr_right fun hb => by rw [hlisted b hb]
      rw [eraseDupsBy_concat, eraseDupsBy_concat, hrest, hany]

/-- A finer relation leaves out the same entries exactly if it is no finer between the entries. -/
theorem eraseDupsBy_eq_iff (hr : Equivalence fun a b => r a b = true)
    (hs : Equivalence fun a b => s a b = true) (hle : ∀ a b, s a b = true → r a b = true) :
    items.eraseDupsBy r = items.eraseDupsBy s ↔
      ∀ a ∈ items, ∀ b ∈ items, r a b = true → s a b = true := by
  constructor
  · intro heq a ha b hb hab
    obtain ⟨listed, hlisted, hsame⟩ := exists_mem_eraseDupsBy hs.refl ha
    obtain ⟨other, hother, hsame'⟩ := exists_mem_eraseDupsBy hs.refl hb
    have hpairwise : (items.eraseDupsBy s).Pairwise fun x y => ¬ r x y = true := by
      rw [← heq]
      apply (pairwise_eraseDupsBy r items).imp
      intro x y hapart hxy
      exact Bool.false_ne_true (hapart.symm.trans (hr.symm hxy))
    -- what is listed for the two is in the coarser relation, so it is one and the same
    have hlinked : r listed other = true :=
      hr.trans (hr.symm (hle a listed hsame)) (hr.trans hab (hle b other hsame'))
    have hone : listed = other := by
      have : Std.Symm fun x y => ¬ r x y = true := ⟨fun _ _ hapart hxy => hapart (hr.symm hxy)⟩
      by_contra hne
      exact hpairwise.forall hlisted hother hne hlinked
    exact hs.trans hsame (hone ▸ hs.symm hsame')
  · intro h
    apply eraseDupsBy_congr
    intro a ha b hb
    exact Bool.eq_iff_iff.mpr ⟨h a ha b hb, hle a b⟩

end ExportIndex
