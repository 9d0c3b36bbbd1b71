import ExportIndex.Surface
import Mathlib.Data.List.Basic
import Mathlib.Data.List.Nodup

/-!
# What a surface lists

A surface that is put together from offers lists every named offer under its name, each binding
once, and the first offer of a default binding in its default slot.
-/

namespace ExportIndex.Surface

/-- What holds of every surface that is put together from offers. -/
structure WellFormed (s : Surface) : Prop where
  /-- The default slot is no name. -/
  default_notMem : defaultName ∉ s.named.keys
  nodup : ∀ name bindings, s.named.get? name = some bindings → bindings.Nodup
  ne_nil : ∀ name bindings, s.named.get? name = some bindings → bindings ≠ []

theorem wellFormed_empty : empty.WellFormed where
  default_notMem := by simp [empty]
  nodup _ _ h := by simp [empty] at h
  ne_nil _ _ h := by simp [empty] at h

@[simp] theorem bindings_empty (name : String) : empty.bindings name = [] := by
  simp [bindings, empty]

theorem bindings_default (s : Surface) : s.bindings defaultName = s.default?.toList := if_pos rfl

theorem bindings_of_ne (s : Surface) {name : String} (h : name ≠ defaultName) :
    s.bindings name = (s.named.get? name).getD [] := if_neg h

theorem mem_bindings_default {s : Surface} {binding : Binding} :
    binding ∈ s.bindings defaultName ↔ s.default? = some binding := by
  rw [bindings_default, Option.mem_toList]

theorem bindings_of_named {s : Surface} (h : s.WellFormed) {name : String}
    {bindings : List Binding} (hget : s.named.get? name = some bindings) :
    s.bindings name = bindings := by
  have hname : name ≠ defaultName := by
    rintro rfl
    exact h.default_notMem (Registry.mem_keys_iff.mpr ⟨_, hget⟩)
  rw [bindings_of_ne s hname, hget, Option.getD_some]

/-- The bindings of a name after one more was offered. -/
def addBinding (binding : Binding) : Option (List Binding) → List Binding
  | some bindings => if binding ∈ bindings then bindings else bindings ++ [binding]
  | none => [binding]

theorem bind_default (s : Surface) {offer : Offer} (h : offer.name = defaultName) :
    s.bind offer = { s with default? := s.default?.or (some offer.binding) } := if_pos h

theorem bind_of_ne (s : Surface) {offer : Offer} (h : offer.name ≠ defaultName) :
    s.bind offer =
      { s with named := s.named.upsert offer.name (addBinding offer.binding) } := if_neg h

theorem mem_addBinding {binding other : Binding} {bindings : Option (List Binding)} :
    other ∈ addBinding binding bindings ↔ other ∈ bindings.getD [] ∨ other = binding := by
  cases bindings with
  | none => simp [addBinding]
  | some bindings =>
      by_cases hmem : binding ∈ bindings
      · simp only [addBinding, if_pos hmem, Option.getD_some]
        exact ⟨.inl, fun h => h.elim id fun heq => heq ▸ hmem⟩
      · simp [addBinding, hmem]

theorem nodup_addBinding (binding : Binding) {bindings : Option (List Binding)}
    (h : ∀ list, bindings = some list → list.Nodup) : (addBinding binding bindings).Nodup := by
  cases bindings with
  | none => simp [addBinding]
  | some bindings =>
      by_cases hmem : binding ∈ bindings
      · simpa [addBinding, hmem] using h bindings rfl
      · simp only [addBinding, if_neg hmem]
        exact (h bindings rfl).append (List.nodup_singleton _) (by simpa using hmem)

theorem addBinding_ne_nil (binding : Binding) (bindings : Option (List Binding)) :
    addBinding binding bindings ≠ [] :=
  List.ne_nil_of_mem (mem_addBinding.mpr (.inr rfl))

theorem WellFormed.bind {s : Surface} (h : s.WellFormed) (offer : Offer) :
    (s.bind offer).WellFormed := by
  by_cases hname : offer.name = defaultName
  · rw [bind_default s hname]
    exact ⟨h.default_notMem, h.nodup, h.ne_nil⟩
  · rw [bind_of_ne s hname]
    refine ⟨?_, ?_, ?_⟩
    · simp only [Registry.keys_upsert]
      split
      · exact h.default_notMem
      · simpa [h.default_notMem] using Ne.symm hname
    · intro name bindings hget
      simp only [Registry.get?_upsert] at hget
      split at hget
      · obtain rfl := Option.some.inj hget
        exact nodup_addBinding _ fun list hlist => h.nodup _ list hlist
      · exact h.nodup name bindings hget
    · intro name bindings hget
      simp only [Registry.get?_upsert] at hget
      split at hget
      · obtain rfl := Option.some.inj hget
        exact addBinding_ne_nil _ _
      · exact h.ne_nil name bindings hget

theorem WellFormed.foldl_bind {s : Surface} (h : s.WellFormed) (offers : List Offer) :
    (offers.foldl Surface.bind s).WellFormed := by
  induction offers generalizing s with
  | nil => exact h
  | cons offer rest ih => exact ih (h.bind offer)

theorem wellFormed_ofOffers (offers : List Offer) : (ofOffers offers).WellFormed :=
  wellFormed_empty.foldl_bind offers

theorem mem_bindings_bind {s : Surface} {offer : Offer} {name : String} {binding : Binding}
    (hname : name ≠ defaultName) :
    binding ∈ (s.bind offer).bindings name ↔
      binding ∈ s.bindings name ∨ offer = ⟨name, binding⟩ := by
  rw [bindings_of_ne _ hname, bindings_of_ne _ hname]
  by_cases hoffer : offer.name = defaultName
  · have hne : offer ≠ ⟨name, binding⟩ := by
      rintro rfl
      exact hname hoffer
    simp [bind_default s hoffer, hne]
  · rw [bind_of_ne s hoffer]
    simp only [Registry.get?_upsert]
    by_cases heq : offer.name = name
    · subst heq
      simp only [if_true, Option.getD_some, mem_addBinding]
      refine or_congr_right ⟨?_, ?_⟩
      · rintro rfl
        rfl
      · exact fun h => (congrArg Offer.binding h).symm
    · have hne : offer ≠ ⟨name, binding⟩ := fun h => heq (congrArg Offer.name h)
      simp [heq, hne]

/-- A name lists exactly the bindings that are offered under it. -/
theorem mem_bindings_ofOffers {offers : List Offer} {name : String} {binding : Binding}
    (hname : name ≠ defaultName) :
    binding ∈ (ofOffers offers).bindings name ↔ ⟨name, binding⟩ ∈ offers := by
  have hfold : ∀ s : Surface, binding ∈ (offers.foldl bind s).bindings name ↔
      binding ∈ s.bindings name ∨ ⟨name, binding⟩ ∈ offers := by
    induction offers with
    | nil => simp
    | cons offer rest ih =>
        intro s
        rw [List.foldl_cons, ih, mem_bindings_bind hname, List.mem_cons, or_assoc, eq_comm]
  simpa [ofOffers] using hfold empty

/-- The default slot holds the first binding that is offered for it. -/
theorem default?_ofOffers (offers : List Offer) :
    (ofOffers offers).default? =
      (offers.find? (·.name = defaultName)).map (·.binding) := by
  have hfold : ∀ s : Surface, (offers.foldl bind s).default? =
      s.default?.or ((offers.find? (·.name = defaultName)).map (·.binding)) := by
    induction offers with
    | nil => simp
    | cons offer rest ih =>
        intro s
        rw [List.foldl_cons, ih]
        by_cases hname : offer.name = defaultName
        · simp [bind_default s hname, hname]
        · simp [bind_of_ne s hname, hname]
  simpa [ofOffers, empty] using hfold empty

@[simp] theorem assigned?_bind (s : Surface) (offer : Offer) :
    (s.bind offer).assigned? = s.assigned? := by
  unfold bind
  split <;> rfl

@[simp] theorem conflict_bind (s : Surface) (offer : Offer) :
    (s.bind offer).conflict = s.conflict := by
  unfold bind
  split <;> rfl

/-- Offers fill names and the default slot and nothing else. -/
theorem assigned?_ofOffers (offers : List Offer) :
    (ofOffers offers).assigned? = none ∧ (ofOffers offers).conflict = false := by
  have hfold : ∀ s : Surface, (offers.foldl bind s).assigned? = s.assigned? ∧
      (offers.foldl bind s).conflict = s.conflict := by
    induction offers with
    | nil => exact fun _ => ⟨rfl, rfl⟩
    | cons offer rest ih =>
        intro s
        simpa using ih (s.bind offer)
  exact hfold empty

/-- The offers of a surface are the bindings that its names list. -/
theorem mem_namedOffers_iff {s : Surface} (h : s.WellFormed) {offer : Offer} :
    offer ∈ s.namedOffers ↔
      offer.name ≠ defaultName ∧ offer.binding ∈ s.bindings offer.name := by
  simp only [namedOffers, List.mem_flatMap, List.mem_map]
  constructor
  · rintro ⟨⟨name, bindings⟩, hentry, binding, hbinding, rfl⟩
    have hget := Registry.get?_eq_some_iff.mpr hentry
    have hname : name ≠ defaultName := by
      rintro rfl
      exact h.default_notMem (Registry.mem_keys_iff.mpr ⟨_, hget⟩)
    exact ⟨hname, by simpa [bindings_of_ne s hname, hget] using hbinding⟩
  · rintro ⟨hname, hbinding⟩
    rw [bindings_of_ne s hname] at hbinding
    cases hget : s.named.get? offer.name with
    | none => simp [hget] at hbinding
    | some bindings =>
        exact ⟨(offer.name, bindings), Registry.get?_eq_some_iff.mp hget, offer.binding,
          by simpa [hget] using hbinding, rfl⟩

theorem nodup_namedOffers {s : Surface} (h : s.WellFormed) : s.namedOffers.Nodup := by
  refine List.nodup_flatMap.mpr ⟨?_, ?_⟩
  · rintro ⟨name, bindings⟩ hentry
    exact (h.nodup name bindings (Registry.get?_eq_some_iff.mpr hentry)).map
      fun _ _ heq => congrArg Offer.binding heq
  · -- the lists of different names share nothing, since an offer says its name
    apply (List.pairwise_map.mp s.named.nodup).imp
    intro first second hne offer hfirst hsecond
    obtain ⟨_, _, rfl⟩ := List.mem_map.mp hfirst
    obtain ⟨_, _, heq⟩ := List.mem_map.mp hsecond
    exact hne (congrArg Offer.name heq).symm

/-- The offers of a surface under a name are the bindings that it lists there, in its order. -/
theorem filter_namedOffers (s : Surface) (name : String) :
    s.namedOffers.filter (·.name = name) =
      ((s.named.get? name).getD []).map (Offer.mk name) := by
  have hoffers : s.namedOffers =
      s.named.entries.flatMap fun entry => entry.2.map (Offer.mk entry.1) := rfl
  have hfilter : ∀ entries : List (String × List Binding),
      (entries.flatMap fun entry => entry.2.map (Offer.mk entry.1)).filter (·.name = name) =
        (entries.filter (·.1 = name)).flatMap fun entry => entry.2.map (Offer.mk entry.1) := by
    intro entries
    induction entries with
    | nil => rfl
    | cons entry rest ih =>
        rw [List.flatMap_cons, List.filter_append, ih]
        by_cases heq : entry.1 = name <;> simp [List.filter_map, Function.comp_def, heq]
  rw [hoffers, hfilter, s.named.filter_entries]
  cases s.named.get? name <;> simp

/-- Everything that a surface lists, the default binding last. -/
def listed (s : Surface) : List Offer :=
  s.namedOffers ++ s.default?.toList.map (Offer.mk defaultName)

theorem bindingCount_eq_length_listed (s : Surface) : s.bindingCount = s.listed.length := by
  simp [bindingCount, listed]

theorem mem_listed_iff {s : Surface} (h : s.WellFormed) {offer : Offer} :
    offer ∈ s.listed ↔ offer.binding ∈ s.bindings offer.name := by
  rw [listed, List.mem_append, mem_namedOffers_iff h]
  by_cases hname : offer.name = defaultName
  · obtain ⟨name, binding⟩ := offer
    subst hname
    simp [mem_bindings_default]
  · have hnot : offer ∉ s.default?.toList.map (Offer.mk defaultName) := by
      intro hmem
      obtain ⟨_, _, rfl⟩ := List.mem_map.mp hmem
      exact hname rfl
    simp [hname, hnot]

theorem nodup_listed {s : Surface} (h : s.WellFormed) : s.listed.Nodup := by
  apply (nodup_namedOffers h).append
  · cases s.default? <;> simp
  · intro offer hnamed hdefault
    obtain ⟨_, _, rfl⟩ := List.mem_map.mp hdefault
    exact ((mem_namedOffers_iff h).mp hnamed).1 rfl

end ExportIndex.Surface
