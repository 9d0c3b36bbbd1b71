import ExportIndex.Proofs.Collections.NameSets
import ExportIndex.Proofs.Json.Declaration

/-!
# Resources read back

Writing a resource as JSON loses nothing: it is read back as it was, nested resources and the order
of its usages included, whenever its numbers can be written. All that can be read is of that kind, so
that a resource which comes from JSON keeps its form.
-/

namespace ExportIndex

open Json

/-! ## Numbers below the limit -/

/-- The position of a target can be written. -/
def AssignedTarget.Fits : AssignedTarget → Prop
  | declaration index => index < numberLimit
  | resource index => index < numberLimit

/-- All numbers of an export statement can be written. -/
def Export.Fits : Export → Prop
  | all _ _ span => span.Fits
  | named _ _ _ span => span.Fits
  | assigned _ targets span => (∀ t ∈ targets, t.Fits) ∧ span.Fits

/-- All numbers of a resource and of the resources nested in it can be written. -/
inductive Resource.Fits : Resource → Prop
  | intro {r : Resource} (declarations : ∀ d ∈ r.declarations, d.Fits)
      (imports : ∀ i ∈ r.imports, i.span.Fits) (exports : ∀ e ∈ r.exports, e.Fits)
      (span? : ∀ s ∈ r.span?, s.Fits) (resources : ∀ nested ∈ r.resources, Fits nested) : Fits r

/-! ## Statements -/

theorem SymbolSpecifier.ofJson?_toJson (s : SymbolSpecifier) : ofJson? s.toJson = some s := by
  simp [toJson, ofJson?, required?, optional?_text s.rename?]

@[simp] theorem specifiers_ofJson?_toJson (specifiers : List SymbolSpecifier) :
    list? SymbolSpecifier.ofJson? (.array (specifiers.map SymbolSpecifier.toJson)) =
      some specifiers :=
  list?_array_map fun s _ => s.ofJson?_toJson

theorem AssignedTarget.ofJson?_toJson {t : AssignedTarget} (h : t.Fits) :
    ofJson? t.toJson = some t := by
  cases t with
  | declaration index =>
      have hindex : (natural index).natural? = some index := natural?_natural h
      simp [toJson, ofJson?, required?, get?, fields?, word?, List.lookup_cons, hindex, ofKind?]
  | resource index =>
      have hindex : (natural index).natural? = some index := natural?_natural h
      simp [toJson, ofJson?, required?, get?, fields?, word?, List.lookup_cons, hindex, ofKind?]

theorem AssignedTarget.fits_of_ofJson? {j : Json} {t : AssignedTarget} (h : ofJson? j = some t) :
    t.Fits := by
  have hkind {kind : String} {index : Nat} (hlt : index < numberLimit)
      (h : ofKind? kind index = some t) : t.Fits := by
    unfold ofKind? at h
    split at h
    · exact Option.some.inj h ▸ hlt
    · exact Option.some.inj h ▸ hlt
    · cases h
  unfold ofJson? at h
  split at h
  · simp only [Option.bind_eq_bind, Option.bind_eq_some_iff] at h
    obtain ⟨_, -, _, hindex, h⟩ := h
    exact hkind (lt_of_natural? hindex) h
  · simp only [Option.bind_eq_bind, Option.bind_eq_some_iff] at h
    obtain ⟨_, -, _, hindex, h⟩ := h
    obtain ⟨_, -, hindex⟩ := exists_of_required? hindex
    exact hkind (lt_of_natural? hindex) h

theorem Import.ofJson?_toJson {i : Import} (h : i.span.Fits) : ofJson? i.toJson = some i := by
  have hspan := Span.ofJson?_toJson h
  cases i with
  | named library specifiers defaultLocal? isTypeOnly span =>
      rw [Import.span] at hspan
      simp [toJson, ofJson?, tag?, required?, optional?_text defaultLocal?, hspan]
  | _ =>
      rw [Import.span] at hspan
      simp [toJson, object_eq_ofFields, ofJson?, tag?, required?, hspan]

theorem Import.fits_of_ofJson? {j : Json} {i : Import} (h : ofJson? j = some i) :
    i.span.Fits := by
  simp only [ofJson?, Option.bind_eq_bind, Option.bind_eq_some_iff, Option.pure_def] at h
  obtain ⟨⟨_, _⟩, -, kind, -, h⟩ := h
  split at h <;> simp only [Option.bind_eq_some_iff, Option.some.injEq, reduceCtorEq] at h
  · obtain ⟨_, -, _, -, _, hspan, rfl⟩ := h
    exact Span.fits_of_required? hspan
  · obtain ⟨_, -, _, -, _, -, _, -, _, -, _, hspan, rfl⟩ := h
    exact Span.fits_of_required? hspan
  · obtain ⟨_, -, _, -, _, -, _, -, _, hspan, rfl⟩ := h
    exact Span.fits_of_required? hspan
  · obtain ⟨_, -, _, -, _, -, _, hspan, rfl⟩ := h
    exact Span.fits_of_required? hspan
  · obtain ⟨_, -, _, -, _, -, _, hspan, rfl⟩ := h
    exact Span.fits_of_required? hspan

theorem Export.ofJson?_toJson {e : Export} (h : e.Fits) : ofJson? e.toJson = some e := by
  cases e with
  | all source rename? span =>
      have hspan : span.Fits := h
      simp [toJson, ofJson?, tag?, required?, optional?_text rename?, Span.ofJson?_toJson hspan]
  | named source? specifiers isTypeOnly span =>
      have hspan : span.Fits := h
      simp [toJson, ofJson?, tag?, required?, optional?_text source?, Span.ofJson?_toJson hspan]
  | assigned name targets span =>
      obtain ⟨htargets, hspan⟩ := h
      have hlist : list? AssignedTarget.ofJson? (.array (targets.map AssignedTarget.toJson)) =
          some targets :=
        list?_array_map fun t hmem => AssignedTarget.ofJson?_toJson (htargets t hmem)
      simp [toJson, object_eq_ofFields, ofJson?, tag?, required?, hlist, Span.ofJson?_toJson hspan]

theorem Export.fits_of_ofJson? {j : Json} {e : Export} (h : ofJson? j = some e) : e.Fits := by
  simp only [ofJson?, Option.bind_eq_bind, Option.bind_eq_some_iff, Option.pure_def] at h
  obtain ⟨⟨_, _⟩, -, kind, -, h⟩ := h
  split at h <;> simp only [Option.bind_eq_some_iff, Option.some.injEq, reduceCtorEq] at h
  · obtain ⟨_, -, _, -, _, -, _, hspan, rfl⟩ := h
    exact Span.fits_of_required? hspan
  · obtain ⟨_, -, _, -, _, -, _, -, _, hspan, rfl⟩ := h
    exact Span.fits_of_required? hspan
  · obtain ⟨_, -, _, -, targets, htargets, _, hspan, rfl⟩ := h
    exact ⟨forall_of_required?_list? (fun _ _ => AssignedTarget.fits_of_ofJson?) htargets,
      Span.fits_of_required? hspan⟩

/-! ## Names, paths and words -/

@[simp] theorem ResourceKind.ofJson?_word (k : ResourceKind) : ofJson? (.text k.word) = some k := by
  cases k <;> rfl

theorem optional?_path (path? : Option Path) {value : Json} {field : String}
    (hget : value.get? field = path?.map fun path => text path.text) :
    value.optional? field Path.ofJson? = some path? := by
  have hpart : ∀ path ∈ path?, text path.text ≠ null ∧ Path.ofJson? (text path.text) = some path :=
    fun _ _ => ⟨nofun, rfl⟩
  exact optional?_of_get? hpart hget

namespace NameSet

/-- A name set is read back in its order. -/
@[simp] theorem ofJson?_toList (s : NameSet) : ofJson? (.ofTexts s.toList) = some s := by
  simp only [ofJson?, list?_ofTexts, Option.map_some, ofList_toList]

end NameSet

namespace Resource

/-- How a resource is read, without the proofs that reading ends. -/
theorem ofJson?_eq (j : Json) : ofJson? j = (do
    let record ← j.record? fieldNames
    let kind ← record.required? "kind" ResourceKind.ofJson?
    let name? ← record.optional? "name" Json.text?
    let filePath? ← record.optional? "file_path" Path.ofJson?
    let rootPath? ← record.optional? "root_path" Path.ofJson?
    let exported ← record.withDefault? "exported" false Json.bool?
    let ambient ← record.withDefault? "ambient" false Json.bool?
    let declarations ← record.required? "declarations" (Json.list? Declaration.ofJson?)
    let imports ← record.required? "imports" (Json.list? Import.ofJson?)
    let exports ← record.required? "exports" (Json.list? Export.ofJson?)
    let usages ← record.required? "usages" NameSet.ofJson?
    let span? ← record.optional? "location" Span.ofJson?
    let resources ← record.required? "resources" (Json.list? ofJson?)
    return { kind, name?, filePath?, rootPath?, exported, ambient, declarations, imports,
             exports, usages, resources, span? }) := by
  rw [ofJson?]
  split
  next hrecord => rw [hrecord]; rfl
  next record hrecord =>
    rw [hrecord]
    dsimp only [Option.bind_eq_bind, Option.bind_some]
    iterate 11 refine Option.bind_congr fun _ _ => ?_
    split
    next hlist => rw [required?, hlist]; rfl
    next list hlist =>
      rw [required?, hlist, Option.bind_some, list?]
      split
      next hitems => rw [hitems]; rfl
      next items hitems =>
        have hattach : (items.attach.mapM fun item => ofJson? item.1) = items.mapM ofJson? := by
          conv_rhs => rw [← List.attach_map_subtype_val items, List.mapM_map]
          rfl
        rw [hitems, Option.bind_some, hattach]

theorem ofJson?_toJson {r : Resource} (h : r.Fits) : ofJson? r.toJson = some r := by
  induction h with
  | @intro r declarations imports exports span? _ resources =>
      have hdeclarations : list? Declaration.ofJson? (.array (r.declarations.map Declaration.toJson)) =
          some r.declarations :=
        list?_array_map fun d hmem => Declaration.read?_toJson .outside (declarations d hmem)
      have himports : list? Import.ofJson? (.array (r.imports.map Import.toJson)) =
          some r.imports :=
        list?_array_map fun i hmem => Import.ofJson?_toJson (imports i hmem)
      have hexports : list? Export.ofJson? (.array (r.exports.map Export.toJson)) =
          some r.exports :=
        list?_array_map fun e hmem => Export.ofJson?_toJson (exports e hmem)
      have hresources : list? ofJson? (.array (r.resources.map toJson)) = some r.resources :=
        list?_array_map resources
      have hspan : ∀ s ∈ r.span?, s.toJson ≠ .null ∧ Span.ofJson? s.toJson = some s :=
        fun s hmem => ⟨nofun, Span.ofJson?_toJson (span? s hmem)⟩
      rw [ofJson?_eq, toJson]
      dsimp only [Option.bind_eq_bind, Option.pure_def]
      -- the reads are opened from the first to the last, so that what follows one is met only once
      simp only [↓Option.bind_eq_some_iff]
      simp [required?, withDefault?, optional?_text r.name?, optional?_path r.filePath?,
        optional?_path r.rootPath?, hdeclarations, himports, hexports, hresources,
        optional?_of_get? hspan, -Bool.exists_bool]
      cases r
      rfl

theorem fits_of_ofJson? {j : Json} {r : Resource} (h : ofJson? j = some r) : r.Fits := by
  rw [ofJson?_eq] at h
  dsimp only [Option.bind_eq_bind, Option.pure_def] at h
  simp only [↓Option.bind_eq_some_iff, Option.some.injEq] at h
  obtain ⟨record, hrecord, _, -, _, -, _, -, _, -, _, -, _, -, declarations, hdeclarations, imports,
    himports, exports, hexports, _, -, span?, hspan, resources, hresources, rfl⟩ := h
  refine ⟨forall_of_required?_list? (fun _ _ => Declaration.fits_of_read?) hdeclarations,
    forall_of_required?_list? (fun _ _ => Import.fits_of_ofJson?) himports,
    forall_of_required?_list? (fun _ _ => Export.fits_of_ofJson?) hexports, ?_, ?_⟩
  · intro s hmem
    obtain ⟨_, -, hs⟩ := exists_of_optional? hspan hmem
    exact Span.fits_of_ofJson? hs
  · intro nested hmem
    obtain ⟨list, hget, hlist⟩ := exists_of_required? hresources
    obtain ⟨items, item, hitems, hin, hread⟩ := exists_of_list? hlist hmem
    exact fits_of_ofJson? hread
termination_by j
decreasing_by
  exact Nat.lt_trans (sizeOf_of_mem_items? hitems hin) (sizeOf_of_get?_record? hrecord hget)

/-- The written form of a resource is read back as the same resource exactly if all its numbers can be
written, and that is so for every resource that can be read at all: what is read from any value keeps
its form when it is written and read again. -/
theorem readsBack_iff_fits :
    (∀ r : Resource, ofJson? r.toJson = some r ↔ r.Fits) ∧
      ∀ (j : Json) (r : Resource), ofJson? j = some r → ofJson? r.toJson = some r :=
  ⟨fun _ => ⟨fits_of_ofJson?, ofJson?_toJson⟩,
    fun _ _ h => ofJson?_toJson (fits_of_ofJson? h)⟩

/-- A namespace that is written as an array. -/
def looseNamespace : Json :=
  .array [.text "namespace", .text "a", .null, .null, .bool true, .bool false, .array [], .array [],
    .array [], .array [], .array [], .null]

/-- A module with a nested namespace, in a form in which it is never written: with usages listed
twice, a null in place of the name, no marks, and arrays in place of records. -/
def looseModule : Json :=
  .object
    [("kind", .object [("module", .null)]), ("name", .null), ("declarations", .array []),
      ("imports", .array []),
      ("exports", .array [.object [("kind", .text "assigned"), ("name", .text "a"),
        ("targets", .array [.array [.natural 1, .natural 0]]),
        ("location", .array [.natural 3, .natural 9])]]),
      ("usages", .ofTexts ["b", "a", "b"]), ("resources", .array [looseNamespace])]

theorem looseModule_readsBack :
    ∃ r, ofJson? looseModule = some r ∧ r.usages.toList = ["b", "a"] ∧ r.resources.length = 1 ∧
      ofJson? r.toJson = some r := by
  obtain ⟨nested, hnested⟩ : ∃ nested, ofJson? looseNamespace = some nested := by
    rw [ofJson?_eq]
    exact ⟨_, rfl⟩
  have hresources : list? ofJson? (.array [looseNamespace]) = some [nested] := by
    simp [list?, items?, hnested]
  obtain ⟨r, hread, husages, hlist⟩ : ∃ r, ofJson? looseModule = some r ∧
      r.usages.toList = ["b", "a"] ∧ r.resources = [nested] := by
    rw [ofJson?_eq]
    dsimp only [Option.bind_eq_bind, Option.pure_def]
    simp only [↓Option.bind_eq_some_iff]
    exact ⟨_, ⟨_, rfl, _, rfl, _, rfl, _, rfl, _, rfl, _, rfl, _, rfl, _, rfl, _, rfl, _, rfl,
      _, rfl, _, rfl, _, hresources, rfl⟩, rfl, rfl⟩
  exact ⟨r, hread, husages, by rw [hlist]; rfl, readsBack_iff_fits.2 looseModule r hread⟩

end Resource

end ExportIndex
