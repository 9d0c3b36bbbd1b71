import ExportIndex.Proofs.Json.Fields

/-!
# Declarations read back

A declaration whose offsets lie below the limit is read back from its written form, and every
declaration that can be read is such a declaration.
-/

namespace ExportIndex

open Json

/-! ## Numbers below the limit -/

/-- The offsets of a span can be written. -/
structure Span.Fits (s : Span) : Prop where
  start_lt : s.start < numberLimit
  stop_lt : s.stop < numberLimit

structure Method.Fits (m : Method) : Prop where
  parameters : ∀ p ∈ m.parameters, p.span.Fits
  locals : ∀ v ∈ m.locals, v.span.Fits
  span : m.span.Fits

structure Constructor.Fits (c : Constructor) : Prop where
  parameters : ∀ p ∈ c.parameters, p.span.Fits
  locals : ∀ v ∈ c.locals, v.span.Fits
  span : c.span.Fits

structure ClassDeclaration.Fits (c : ClassDeclaration) : Prop where
  constructor? : ∀ k ∈ c.constructor?, k.Fits
  methods : ∀ m ∈ c.methods, m.Fits
  properties : ∀ p ∈ c.properties, p.span.Fits
  accessors : ∀ a ∈ c.accessors, a.span.Fits
  span : c.span.Fits

structure InterfaceDeclaration.Fits (i : InterfaceDeclaration) : Prop where
  methods : ∀ m ∈ i.methods, m.Fits
  properties : ∀ p ∈ i.properties, p.span.Fits
  span : i.span.Fits

structure FunctionDeclaration.Fits (f : FunctionDeclaration) : Prop where
  parameters : ∀ p ∈ f.parameters, p.span.Fits
  locals : ∀ v ∈ f.locals, v.span.Fits
  span : f.span.Fits

/-- All offsets of a declaration can be written, also those of what a default export wraps. -/
def Declaration.Fits : Declaration → Prop
  | ofClass d => d.Fits
  | ofInterface d => d.Fits
  | ofEnum d => d.span.Fits
  | ofFunction d => d.Fits
  | ofVariable d => d.span.Fits
  | ofTypeAlias d => d.span.Fits
  | ofModule d => d.span.Fits
  | defaultValue _ span => span.Fits
  | defaultWrapping _ inner span => inner.Fits ∧ span.Fits

/-! ## Parts of declarations -/

theorem Span.ofJson?_toJson {s : Span} (h : s.Fits) : ofJson? s.toJson = some s := by
  rw [toJson, object_eq_ofFields]
  simp [ofJson?, required?, natural?_natural h.start_lt, natural?_natural h.stop_lt]

@[simp] theorem Visibility.ofJson?_word (v : Visibility) : ofJson? (.text v.word) = some v := by
  cases v <;> rfl

@[simp] theorem VariableScope.ofJson?_word (s : VariableScope) :
    ofJson? (.text s.word) = some s := by
  cases s <;> rfl

@[simp] theorem AccessorKind.ofJson?_word (k : AccessorKind) : ofJson? (.text k.word) = some k := by
  cases k <;> rfl

theorem Parameter.ofJson?_toJson {p : Parameter} (h : p.span.Fits) :
    ofJson? p.toJson = some p := by
  simp [toJson, ofJson?, required?, optional?_text p.type?, Span.ofJson?_toJson h]

/-- The fields of a variable are read with or without the tag of a declaration among them. -/
theorem VariableDeclaration.ofJson?_ofFields {v : VariableDeclaration} (h : v.span.Fits)
    (tag? : Option Json) : ofJson? (ofFields (("kind", tag?) :: v.fields)) = some v := by
  simp [fields, ofJson?, required?, optional?_text v.type?, Span.ofJson?_toJson h]

theorem VariableDeclaration.ofJson?_toJson {v : VariableDeclaration} (h : v.span.Fits) :
    ofJson? v.toJson = some v :=
  ofJson?_ofFields h none

theorem Property.ofJson?_toJson {p : Property} (h : p.span.Fits) : ofJson? p.toJson = some p := by
  simp [toJson, ofJson?, required?, optional?_text p.type?, Span.ofJson?_toJson h]

theorem Accessor.ofJson?_toJson {a : Accessor} (h : a.span.Fits) : ofJson? a.toJson = some a := by
  simp [toJson, ofJson?, required?, optional?_text a.type?, Span.ofJson?_toJson h]

theorem parameters_ofJson?_toJson {parameters : List Parameter}
    (h : ∀ p ∈ parameters, p.span.Fits) :
    list? Parameter.ofJson? (.array (parameters.map Parameter.toJson)) = some parameters :=
  list?_array_map fun p hmem => Parameter.ofJson?_toJson (h p hmem)

theorem locals_ofJson?_toJson {locals : List VariableDeclaration} (h : ∀ v ∈ locals, v.span.Fits) :
    list? VariableDeclaration.ofJson? (.array (locals.map VariableDeclaration.toJson)) =
      some locals :=
  list?_array_map fun v hmem => VariableDeclaration.ofJson?_toJson (h v hmem)

theorem Method.ofJson?_toJson {m : Method} (h : m.Fits) : ofJson? m.toJson = some m := by
  simp [toJson, ofJson?, required?, optional?_text m.type?, parameters_ofJson?_toJson h.parameters,
    locals_ofJson?_toJson h.locals, Span.ofJson?_toJson h.span]

theorem Constructor.ofJson?_toJson {c : Constructor} (h : c.Fits) : ofJson? c.toJson = some c := by
  simp [toJson, ofJson?, required?, parameters_ofJson?_toJson h.parameters,
    locals_ofJson?_toJson h.locals, Span.ofJson?_toJson h.span]

/-! ## Declarations -/

section Tagged

variable (tag? : Option Json)

theorem ClassDeclaration.ofJson?_ofFields {c : ClassDeclaration} (h : c.Fits) :
    ofJson? (ofFields (("kind", tag?) :: c.fields)) = some c := by
  have hconstructor : ∀ k ∈ c.constructor?, k.toJson ≠ .null ∧
      Constructor.ofJson? k.toJson = some k := fun k hmem =>
    ⟨by simp [Constructor.toJson, ofFields], Constructor.ofJson?_toJson (h.constructor? k hmem)⟩
  have hmethods : list? Method.ofJson? (.array (c.methods.map Method.toJson)) = some c.methods :=
    list?_array_map fun m hmem => Method.ofJson?_toJson (h.methods m hmem)
  have hproperties : list? Property.ofJson? (.array (c.properties.map Property.toJson)) =
      some c.properties :=
    list?_array_map fun p hmem => Property.ofJson?_toJson (h.properties p hmem)
  have haccessors : list? Accessor.ofJson? (.array (c.accessors.map Accessor.toJson)) =
      some c.accessors :=
    list?_array_map fun a hmem => Accessor.ofJson?_toJson (h.accessors a hmem)
  simp [fields, ofJson?, required?, optional?_of_get? hconstructor, hmethods, hproperties,
    haccessors, Span.ofJson?_toJson h.span]

theorem InterfaceDeclaration.ofJson?_ofFields {i : InterfaceDeclaration} (h : i.Fits) :
    ofJson? (ofFields (("kind", tag?) :: i.fields)) = some i := by
  have hmethods : list? Method.ofJson? (.array (i.methods.map Method.toJson)) = some i.methods :=
    list?_array_map fun m hmem => Method.ofJson?_toJson (h.methods m hmem)
  have hproperties : list? Property.ofJson? (.array (i.properties.map Property.toJson)) =
      some i.properties :=
    list?_array_map fun p hmem => Property.ofJson?_toJson (h.properties p hmem)
  simp [fields, ofJson?, required?, hmethods, hproperties, Span.ofJson?_toJson h.span]

theorem EnumDeclaration.ofJson?_ofFields {e : EnumDeclaration} (h : e.span.Fits) :
    ofJson? (ofFields (("kind", tag?) :: e.fields)) = some e := by
  simp [fields, ofJson?, required?, Span.ofJson?_toJson h]

theorem FunctionDeclaration.ofJson?_ofFields {f : FunctionDeclaration} (h : f.Fits) :
    ofJson? (ofFields (("kind", tag?) :: f.fields)) = some f := by
  simp [fields, ofJson?, required?, optional?_text f.type?, parameters_ofJson?_toJson h.parameters,
    locals_ofJson?_toJson h.locals, Span.ofJson?_toJson h.span]

theorem TypeAliasDeclaration.ofJson?_ofFields {t : TypeAliasDeclaration} (h : t.span.Fits) :
    ofJson? (ofFields (("kind", tag?) :: t.fields)) = some t := by
  simp [fields, ofJson?, required?, optional?_text t.type?, Span.ofJson?_toJson h]

theorem ModuleDeclaration.ofJson?_ofFields {m : ModuleDeclaration} (h : m.span.Fits) :
    ofJson? (ofFields (("kind", tag?) :: m.fields)) = some m := by
  simp [fields, ofJson?, required?, Span.ofJson?_toJson h]

end Tagged

namespace Declaration

/-- How a declaration is read, without the proofs that reading ends. -/
theorem read?_eq (place : Place) (j : Json) : read? place j = (do
    let (tag, content) ← j.tagged?
    let kind ← tag.tag? place kindNames
    if kind = "default" then
      let record ← content.record? defaultFields
      let name? ← record.optional? "name" text?
      let span ← record.required? "location" Span.ofJson?
      let inner? ← record.optional? "declaration" (read? .inside)
      return match inner? with
        | none => defaultValue name? span
        | some inner => defaultWrapping name? inner span
    else ofKind? kind content) := by
  rw [read?]
  split
  next htagged => rw [htagged]; rfl
  next tag content htagged =>
    rw [htagged]
    simp only [Option.bind_eq_bind, Option.bind_some]
    split
    next htag => rw [htag]; rfl
    next htag =>
      rw [htag]
      simp only [Option.bind_some, if_pos]
      split
      next hrecord => rw [hrecord]; rfl
      next record hrecord =>
        rw [hrecord]
        simp only [Option.bind_some]
        refine Option.bind_congr fun name? _ => Option.bind_congr fun span _ => ?_
        split
        next hinner => rw [optional?_of_get?_none hinner]; rfl
        next hinner => rw [optional?_of_get?_null hinner]; rfl
        next inner hnull hinner =>
          rw [optional?_of_get?_some hinner hnull, Option.bind_map]
          rfl
    next kind hkind htag =>
      rw [htag]
      simp only [Option.bind_some, if_neg (by simpa using hkind)]

theorem read?_toJson_of_ne (place : Place) {d : Declaration} (h : d.kindName ≠ "default") :
    read? place d.toJson = ofKind? d.kindName d.toJson := by
  rw [read?_eq]
  simp [toJson, tag?, h]

/-- A declaration is read back wherever it stands. -/
theorem read?_toJson (place : Place) {d : Declaration} (h : d.Fits) :
    read? place d.toJson = some d := by
  induction d generalizing place with
  | ofClass c =>
      rw [read?_toJson_of_ne place (by simp [kindName])]
      exact congrArg (Option.map ofClass) (ClassDeclaration.ofJson?_ofFields _ h)
  | ofInterface i =>
      rw [read?_toJson_of_ne place (by simp [kindName])]
      exact congrArg (Option.map ofInterface) (InterfaceDeclaration.ofJson?_ofFields _ h)
  | ofEnum e =>
      rw [read?_toJson_of_ne place (by simp [kindName])]
      exact congrArg (Option.map ofEnum) (EnumDeclaration.ofJson?_ofFields _ h)
  | ofFunction f =>
      rw [read?_toJson_of_ne place (by simp [kindName])]
      exact congrArg (Option.map ofFunction) (FunctionDeclaration.ofJson?_ofFields _ h)
  | ofVariable v =>
      rw [read?_toJson_of_ne place (by simp [kindName])]
      exact congrArg (Option.map ofVariable) (VariableDeclaration.ofJson?_ofFields h _)
  | ofTypeAlias t =>
      rw [read?_toJson_of_ne place (by simp [kindName])]
      exact congrArg (Option.map ofTypeAlias) (TypeAliasDeclaration.ofJson?_ofFields _ h)
  | ofModule m =>
      rw [read?_toJson_of_ne place (by simp [kindName])]
      exact congrArg (Option.map ofModule) (ModuleDeclaration.ofJson?_ofFields _ h)
  | defaultValue name? span =>
      have hspan : span.Fits := h
      rw [read?_eq]
      simp [toJson, fields, kindName, tag?, required?, optional?_text name?,
        Span.ofJson?_toJson hspan, optional?_of_get?_none]
  | defaultWrapping name? inner span ih =>
      obtain ⟨hinner, hspan⟩ := h
      have hfields : (defaultWrapping name? inner span).toJson = ofFields
          [("kind", some (.text "default")), ("name", name?.map .text),
            ("declaration", some inner.toJson), ("location", some span.toJson)] := rfl
      have hnull : inner.toJson ≠ .null := by simp [toJson, ofFields]
      rw [read?_eq, hfields]
      simp [tag?, required?, optional?_text name?, Span.ofJson?_toJson hspan,
        optional?_of_get?_some _ hnull, ih .inside hinner]

end Declaration

/-! ## What is read fits -/

theorem Span.fits_of_ofJson? {j : Json} {s : Span} (h : ofJson? j = some s) : s.Fits := by
  simp only [ofJson?, Option.bind_eq_bind, Option.bind_eq_some_iff, Option.pure_def,
    Option.some.injEq] at h
  obtain ⟨record, -, start, hstart, stop, hstop, rfl⟩ := h
  obtain ⟨_, -, hstart⟩ := exists_of_required? hstart
  obtain ⟨_, -, hstop⟩ := exists_of_required? hstop
  exact ⟨lt_of_natural? hstart, lt_of_natural? hstop⟩

theorem Span.fits_of_required? {record : Json} {field : String} {s : Span}
    (h : record.required? field ofJson? = some s) : s.Fits := by
  obtain ⟨_, -, hspan⟩ := exists_of_required? h
  exact fits_of_ofJson? hspan

theorem Parameter.fits_of_ofJson? {j : Json} {p : Parameter} (h : ofJson? j = some p) :
    p.span.Fits := by
  simp only [ofJson?, Option.bind_eq_bind, Option.bind_eq_some_iff, Option.pure_def,
    Option.some.injEq] at h
  obtain ⟨_, -, _, -, _, -, _, -, _, -, _, -, _, hspan, rfl⟩ := h
  exact Span.fits_of_required? hspan

theorem VariableDeclaration.fits_of_ofJson? {j : Json} {v : VariableDeclaration}
    (h : ofJson? j = some v) : v.span.Fits := by
  simp only [ofJson?, Option.bind_eq_bind, Option.bind_eq_some_iff, Option.pure_def,
    Option.some.injEq] at h
  obtain ⟨_, -, _, -, _, -, _, -, _, -, _, -, _, hspan, rfl⟩ := h
  exact Span.fits_of_required? hspan

theorem Property.fits_of_ofJson? {j : Json} {p : Property} (h : ofJson? j = some p) :
    p.span.Fits := by
  simp only [ofJson?, Option.bind_eq_bind, Option.bind_eq_some_iff, Option.pure_def,
    Option.some.injEq] at h
  obtain ⟨_, -, _, -, _, -, _, -, _, -, _, -, _, -, _, hspan, rfl⟩ := h
  exact Span.fits_of_required? hspan

theorem Accessor.fits_of_ofJson? {j : Json} {a : Accessor} (h : ofJson? j = some a) :
    a.span.Fits := by
  simp only [ofJson?, Option.bind_eq_bind, Option.bind_eq_some_iff, Option.pure_def,
    Option.some.injEq] at h
  obtain ⟨_, -, _, -, _, -, _, -, _, -, _, -, _, -, _, hspan, rfl⟩ := h
  exact Span.fits_of_required? hspan

theorem Method.fits_of_ofJson? {j : Json} {m : Method} (h : ofJson? j = some m) : m.Fits := by
  simp only [ofJson?, Option.bind_eq_bind, Option.bind_eq_some_iff, Option.pure_def,
    Option.some.injEq] at h
  obtain ⟨_, -, _, -, _, -, parameters, hparameters, _, -, _, -, _, -, _, -, _, -, locals, hlocals,
    _, hspan, rfl⟩ := h
  exact ⟨forall_of_required?_list? (fun _ _ => Parameter.fits_of_ofJson?) hparameters,
    forall_of_required?_list? (fun _ _ => VariableDeclaration.fits_of_ofJson?) hlocals,
    Span.fits_of_required? hspan⟩

theorem Constructor.fits_of_ofJson? {j : Json} {c : Constructor} (h : ofJson? j = some c) :
    c.Fits := by
  simp only [ofJson?, Option.bind_eq_bind, Option.bind_eq_some_iff, Option.pure_def,
    Option.some.injEq] at h
  obtain ⟨_, -, parameters, hparameters, locals, hlocals, _, hspan, rfl⟩ := h
  exact ⟨forall_of_required?_list? (fun _ _ => Parameter.fits_of_ofJson?) hparameters,
    forall_of_required?_list? (fun _ _ => VariableDeclaration.fits_of_ofJson?) hlocals,
    Span.fits_of_required? hspan⟩

theorem ClassDeclaration.fits_of_ofJson? {j : Json} {c : ClassDeclaration}
    (h : ofJson? j = some c) : c.Fits := by
  simp only [ofJson?, Option.bind_eq_bind, Option.bind_eq_some_iff, Option.pure_def,
    Option.some.injEq] at h
  obtain ⟨_, -, _, -, _, -, _, -, _, -, constructor?, hconstructor, methods, hmethods,
    properties, hproperties, accessors, haccessors, _, hspan, rfl⟩ := h
  refine ⟨?_, forall_of_required?_list? (fun _ _ => Method.fits_of_ofJson?) hmethods,
    forall_of_required?_list? (fun _ _ => Property.fits_of_ofJson?) hproperties,
    forall_of_required?_list? (fun _ _ => Accessor.fits_of_ofJson?) haccessors,
    Span.fits_of_required? hspan⟩
  intro k hmem
  obtain ⟨_, -, hk⟩ := exists_of_optional? hconstructor hmem
  exact Constructor.fits_of_ofJson? hk

theorem InterfaceDeclaration.fits_of_ofJson? {j : Json} {i : InterfaceDeclaration}
    (h : ofJson? j = some i) : i.Fits := by
  simp only [ofJson?, Option.bind_eq_bind, Option.bind_eq_some_iff, Option.pure_def,
    Option.some.injEq] at h
  obtain ⟨_, -, _, -, _, -, _, -, methods, hmethods, properties, hproperties, _, hspan, rfl⟩ := h
  exact ⟨forall_of_required?_list? (fun _ _ => Method.fits_of_ofJson?) hmethods,
    forall_of_required?_list? (fun _ _ => Property.fits_of_ofJson?) hproperties,
    Span.fits_of_required? hspan⟩

theorem EnumDeclaration.fits_of_ofJson? {j : Json} {e : EnumDeclaration}
    (h : ofJson? j = some e) : e.span.Fits := by
  simp only [ofJson?, Option.bind_eq_bind, Option.bind_eq_some_iff, Option.pure_def,
    Option.some.injEq] at h
  obtain ⟨_, -, _, -, _, -, _, -, _, -, _, hspan, rfl⟩ := h
  exact Span.fits_of_required? hspan

theorem FunctionDeclaration.fits_of_ofJson? {j : Json} {f : FunctionDeclaration}
    (h : ofJson? j = some f) : f.Fits := by
  simp only [ofJson?, Option.bind_eq_bind, Option.bind_eq_some_iff, Option.pure_def,
    Option.some.injEq] at h
  obtain ⟨_, -, _, -, _, -, _, -, _, -, parameters, hparameters, locals, hlocals, _, -, _, hspan,
    rfl⟩ := h
  exact ⟨forall_of_required?_list? (fun _ _ => Parameter.fits_of_ofJson?) hparameters,
    forall_of_required?_list? (fun _ _ => VariableDeclaration.fits_of_ofJson?) hlocals,
    Span.fits_of_required? hspan⟩

theorem TypeAliasDeclaration.fits_of_ofJson? {j : Json} {t : TypeAliasDeclaration}
    (h : ofJson? j = some t) : t.span.Fits := by
  simp only [ofJson?, Option.bind_eq_bind, Option.bind_eq_some_iff, Option.pure_def,
    Option.some.injEq] at h
  obtain ⟨_, -, _, -, _, -, _, -, _, -, _, hspan, rfl⟩ := h
  exact Span.fits_of_required? hspan

theorem ModuleDeclaration.fits_of_ofJson? {j : Json} {m : ModuleDeclaration}
    (h : ofJson? j = some m) : m.span.Fits := by
  simp only [ofJson?, Option.bind_eq_bind, Option.bind_eq_some_iff, Option.pure_def,
    Option.some.injEq] at h
  obtain ⟨_, -, _, -, _, -, _, -, _, hspan, rfl⟩ := h
  exact Span.fits_of_required? hspan

namespace Declaration

theorem fits_of_ofKind? {kind : String} {content : Json} {d : Declaration}
    (h : ofKind? kind content = some d) : d.Fits := by
  unfold ofKind? at h
  split at h <;> simp only [Option.map_eq_some_iff, reduceCtorEq] at h
  all_goals obtain ⟨inner, hinner, rfl⟩ := h
  · exact ClassDeclaration.fits_of_ofJson? hinner
  · exact InterfaceDeclaration.fits_of_ofJson? hinner
  · exact EnumDeclaration.fits_of_ofJson? hinner
  · exact FunctionDeclaration.fits_of_ofJson? hinner
  · exact VariableDeclaration.fits_of_ofJson? hinner
  · exact TypeAliasDeclaration.fits_of_ofJson? hinner
  · exact ModuleDeclaration.fits_of_ofJson? hinner

theorem fits_of_read? {place : Place} {j : Json} {d : Declaration} (h : read? place j = some d) :
    d.Fits := by
  rw [read?_eq] at h
  simp only [Option.bind_eq_bind, Option.bind_eq_some_iff] at h
  obtain ⟨⟨tag, content⟩, htagged, kind, -, h⟩ := h
  split at h
  · simp only [Option.bind_eq_some_iff, Option.pure_def, Option.some.injEq] at h
    obtain ⟨record, hrecord, name?, -, span, hspan, inner?, hinner, rfl⟩ := h
    have hfits := Span.fits_of_required? hspan
    cases inner? with
    | none => exact hfits
    | some inner =>
        obtain ⟨value, hget, hread⟩ := exists_of_optional? hinner rfl
        exact ⟨fits_of_read? hread, hfits⟩
  · exact fits_of_ofKind? h
termination_by j
decreasing_by
  exact Nat.lt_of_lt_of_le (sizeOf_of_get?_record? hrecord hget) (sizeOf_of_tagged? htagged)

end Declaration

end ExportIndex
