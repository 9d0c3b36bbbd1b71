import ExportIndex.Json.Resource
import Mathlib.Data.List.Basic

/-!
# Fields that are written and read

What is read from a written record is what its fields hold, and whatever a record is read from, its
parts are read from parts of it.
-/

namespace ExportIndex

namespace Json

variable {α : Type} {read? : Json → Option α} {write : α → Json}

/-! ## Reading what is written -/

@[simp] theorem get?_ofFields_nil (field : String) : (ofFields []).get? field = none := rfl

@[simp] theorem get?_ofFields_cons (name field : String) (value? : Option Json)
    (rest : List (String × Option Json)) :
    (ofFields ((name, value?) :: rest)).get? field =
      if field = name then value?.or ((ofFields rest).get? field)
      else (ofFields rest).get? field := by
  cases value? with
  | none => simp [ofFields, get?, fields?]
  | some value =>
      by_cases h : field = name
      · simp [ofFields, get?, fields?, h]
      · have hbeq : (field == name) = false := beq_eq_false_iff_ne.mpr h
        simp [ofFields, get?, fields?, List.lookup_cons, hbeq, h]

@[simp] theorem record?_ofFields (names : List String) (fields : List (String × Option Json)) :
    (ofFields fields).record? names = some (ofFields fields) := rfl

@[simp] theorem tagged?_ofFields (tag : Json) (fields : List (String × Option Json)) :
    (ofFields (("kind", some tag) :: fields)).tagged? =
      some (tag, ofFields (("kind", some tag) :: fields)) := rfl

theorem object_eq_ofFields (fields : List (String × Json)) :
    object fields = ofFields (fields.map fun field => (field.1, some field.2)) := by
  simp [ofFields, List.filterMap_map]

@[simp] theorem text?_text (value : String) : (text value).text? = some value := rfl

@[simp] theorem bool?_bool (value : Bool) : (bool value).bool? = some value := rfl

theorem natural?_natural {n : Nat} (h : n < numberLimit) : (natural n).natural? = some n :=
  if_pos h

theorem list?_array_map {items : List α} (h : ∀ item ∈ items, read? (write item) = some item) :
    list? read? (array (items.map write)) = some items := by
  change (items.map write).mapM read? = some items
  induction items with
  | nil => rfl
  | cons item rest ih =>
      have hrest := ih fun other hother => h other (List.mem_cons_of_mem _ hother)
      simp [h item List.mem_cons_self, hrest]

@[simp] theorem list?_ofTexts (texts : List String) : list? text? (ofTexts texts) = some texts :=
  list?_array_map fun _ _ => rfl

theorem optional?_of_get?_none {value : Json} {field : String} (h : value.get? field = none) :
    value.optional? field read? = some none := by
  rw [optional?, h]

theorem optional?_of_get?_null {value : Json} {field : String}
    (h : value.get? field = some null) : value.optional? field read? = some none := by
  rw [optional?, h]

theorem optional?_of_get?_some {value inner : Json} {field : String}
    (h : value.get? field = some inner) (hnull : inner ≠ null) :
    value.optional? field read? = (read? inner).map some := by
  unfold optional?
  rw [h]
  cases inner with
  | null => exact absurd rfl hnull
  | _ => rfl

/-- An optional part that is left out when it is absent, and is never written as null. -/
theorem optional?_of_get? {part? : Option α}
    (h : ∀ part ∈ part?, write part ≠ null ∧ read? (write part) = some part) {value : Json}
    {field : String} (hget : value.get? field = part?.map write) :
    value.optional? field read? = some part? := by
  cases part? with
  | none => exact optional?_of_get?_none hget
  | some part =>
      obtain ⟨hnull, hread⟩ := h part rfl
      rw [optional?_of_get?_some hget hnull, hread, Option.map_some]

theorem optional?_text (part? : Option String) {value : Json} {field : String}
    (hget : value.get? field = part?.map text) : value.optional? field text? = some part? := by
  have hpart : ∀ part ∈ part?, text part ≠ null ∧ text? (text part) = some part :=
    fun _ _ => ⟨nofun, rfl⟩
  exact optional?_of_get? hpart hget

/-! ## What is read -/

theorem lt_of_natural? {value : Json} {n : Nat} (h : value.natural? = some n) :
    n < numberLimit := by
  cases value with
  | natural m =>
      obtain ⟨hlt, heq⟩ := Option.ite_none_right_eq_some.mp h
      rwa [← Option.some.inj heq]
  | _ => cases h

theorem exists_of_required? {value : Json} {field : String} {part : α}
    (h : value.required? field read? = some part) :
    ∃ inner, value.get? field = some inner ∧ read? inner = some part :=
  Option.bind_eq_some_iff.mp h

theorem exists_of_optional? {value : Json} {field : String} {part? : Option α} {part : α}
    (h : value.optional? field read? = some part?) (hmem : part ∈ part?) :
    ∃ inner, value.get? field = some inner ∧ read? inner = some part := by
  unfold optional? at h
  obtain rfl : part? = some part := hmem
  split at h
  · simp at h
  · simp at h
  next inner _ hget =>
    obtain ⟨other, hread, heq⟩ := Option.map_eq_some_iff.mp h
    exact ⟨inner, hget, hread.trans heq⟩

theorem exists_of_mem_mapM {items : List Json} {parts : List α} {part : α}
    (h : items.mapM read? = some parts) (hmem : part ∈ parts) :
    ∃ item ∈ items, read? item = some part := by
  induction items generalizing parts with
  | nil =>
      obtain rfl : parts = [] := by simpa using h.symm
      simp at hmem
  | cons item rest ih =>
      rw [List.mapM_cons] at h
      simp only [Option.bind_eq_bind, Option.bind_eq_some_iff, Option.pure_def,
        Option.some.injEq] at h
      obtain ⟨first, hfirst, others, hothers, rfl⟩ := h
      rcases List.mem_cons.mp hmem with rfl | hother
      · exact ⟨item, List.mem_cons_self, hfirst⟩
      · obtain ⟨other, hin, hread⟩ := ih hothers hother
        exact ⟨other, List.mem_cons_of_mem _ hin, hread⟩

theorem exists_of_list? {value : Json} {parts : List α} {part : α}
    (h : value.list? read? = some parts) (hmem : part ∈ parts) :
    ∃ items item, value.items? = some items ∧ item ∈ items ∧ read? item = some part := by
  obtain ⟨items, hitems, hparts⟩ := Option.bind_eq_some_iff.mp h
  obtain ⟨item, hin, hread⟩ := exists_of_mem_mapM hparts hmem
  exact ⟨items, item, hitems, hin, hread⟩

/-- What holds of all that can be read holds of the items of a list that is read. -/
theorem forall_of_required?_list? {value : Json} {field : String} {parts : List α} {P : α → Prop}
    (hread : ∀ item part, read? item = some part → P part)
    (h : value.required? field (list? read?) = some parts) : ∀ part ∈ parts, P part := by
  intro part hmem
  obtain ⟨inner, -, hlist⟩ := exists_of_required? h
  obtain ⟨_, item, -, -, hitem⟩ := exists_of_list? hlist hmem
  exact hread item part hitem

end Json

end ExportIndex
