import ExportIndex.Proofs.Collections.Positions
import ExportIndex.Proofs.Surface.Comparison
import ExportIndex.Proofs.Surface.Placement

/-!
# The export rules

A name of a module stands either for an item that the module itself exports, or for whatever
another module lists under some name and the module passes on. The rules below say which, without
a look at any surface; the offers of a module are exactly what the rules give.
-/

namespace ExportIndex

def Export.specifiers : Export → List SymbolSpecifier
  | .named _ specifiers _ _ => specifiers
  | _ => []

/-- An import statement binds a local name, to a name of the imported module or to all of it. The
leading default binding of a clause comes before its specifiers, and of several specifiers with one
local name the first counts. -/
inductive Import.Binds : Import → String → ModuleEntry.Imported → Prop
  | ofDefault {library name : String} {span : Span} :
      Binds (.ofDefault library name span) name (.name defaultName)
  | defaultLocal {library name : String} {specifiers : List SymbolSpecifier} {isTypeOnly : Bool}
      {span : Span} :
      Binds (.named library specifiers (some name) isTypeOnly span) name (.name defaultName)
  | specifier {library : String} {before after : List SymbolSpecifier} {s : SymbolSpecifier}
      {defaultLocal? : Option String} {isTypeOnly : Bool} {span : Span}
      (hdefault : defaultLocal? ≠ some s.localName)
      (hfirst : ∀ earlier ∈ before, earlier.localName ≠ s.localName) :
      Binds (.named library (before ++ s :: after) defaultLocal? isTypeOnly span) s.localName
        (.name s.name)
  | star {library name : String} {isTypeOnly : Bool} {span : Span} :
      Binds (.star library name isTypeOnly span) name .whole
  | required {library name : String} {span : Span} : Binds (.required library name span) name .whole

/-- Of two items of one module, the one comes before the other: declarations come first, then nested
resources, then what `export * as` statements offer, each in order. -/
inductive Slot.Before : Slot → Slot → Prop
  | declared {first second : Nat} (h : first < second) : Before (.declared first) (.declared second)
  | nested {first second : Nat} (h : first < second) : Before (.nested first) (.nested second)
  | starExport {first second : Nat} (h : first < second) :
      Before (.starExport first) (.starExport second)
  | declared_nested {first second : Nat} : Before (.declared first) (.nested second)
  | declared_starExport {first second : Nat} : Before (.declared first) (.starExport second)
  | nested_starExport {first second : Nat} : Before (.nested first) (.starExport second)

theorem Slot.Before.asymm {first second : Slot} (h : first.Before second) : ¬ second.Before first := by
  cases h with
  | declared h | nested h | starExport h =>
      intro h'
      cases h'
      omega
  | declared_nested | declared_starExport | nested_starExport =>
      intro h'
      cases h'

namespace ModuleEntry

/-- A module has no `export =`. -/
def AssignsNothing (entry : ModuleEntry) : Prop :=
  ∀ name targets span, .assigned name targets span ∉ entry.resource.exports

/-- A module has an item of its own with a name: a declaration that is no default export, or a
nested resource. -/
inductive Owns (entry : ModuleEntry) (name : String) : Slot → Prop
  | declaration {index : Nat} {d : Declaration}
      (hd : entry.resource.declarations[index]? = some d) (hdefault : d.isDefault = false)
      (hname : d.name? = some name) :
      Owns entry name (.declared index)
  | nested {index : Nat} {r : Resource}
      (hr : entry.resource.resources[index]? = some r) (hname : r.name? = some name) :
      Owns entry name (.nested index)

/-- Of the import statements with known targets, the one at a position is the first that binds a
name. -/
structure FirstImport (entry : ModuleEntry) (name : String) (position : Nat) (target : ModuleKey)
    (imported : Imported) : Prop where
  target_eq : entry.importTargets[position]? = some (some target)
  binds : ∃ i, entry.resource.imports[position]? = some i ∧ i.Binds name imported
  first : ∀ earlier < position, ∀ i other found, entry.resource.imports[earlier]? = some i →
    entry.importTargets[earlier]? = some (some other) → ¬ i.Binds name found

/-- A module itself exports an item under a name. -/
inductive Exports (entry : ModuleEntry) : String → Slot → Prop
  | ofDefault {index : Nat} {d : Declaration}
      (hd : entry.resource.declarations[index]? = some d) (hdefault : d.isDefault = true) :
      Exports entry defaultName (.declared index)
  | declaration {index : Nat} {d : Declaration} {name : String}
      (hd : entry.resource.declarations[index]? = some d) (hdefault : d.isDefault = false)
      (hexported : d.exported = true) (hname : d.name? = some name) :
      Exports entry name (.declared index)
  | nested {index : Nat} {r : Resource} {name : String}
      (hr : entry.resource.resources[index]? = some r) (hexported : r.exported = true)
      (hname : r.name? = some name) :
      Exports entry name (.nested index)
  /-- `export * as name from "m"`. -/
  | star {index : Nat} {source name : String} {span : Span} {target : ModuleKey}
      (he : entry.resource.exports[index]? = some (.all source (some name) span))
      (htarget : entry.exportTargets[index]? = some (some target)) :
      Exports entry name (.starExport index)
  /-- `export {a as name}` of the module's own items named `a`. -/
  | clause {index : Nat} {specifiers : List SymbolSpecifier} {isTypeOnly : Bool} {span : Span}
      {s : SymbolSpecifier} {slot : Slot}
      (he : entry.resource.exports[index]? = some (.named none specifiers isTypeOnly span))
      (hs : s ∈ specifiers) (hown : entry.Owns s.name slot) :
      Exports entry s.localName slot
  /-- `export {a as name}` of an imported module as a whole. -/
  | clauseModule {index position : Nat} {specifiers : List SymbolSpecifier} {isTypeOnly : Bool}
      {span : Span} {s : SymbolSpecifier} {target : ModuleKey}
      (he : entry.resource.exports[index]? = some (.named none specifiers isTypeOnly span))
      (hs : s ∈ specifiers) (hown : ∀ slot, ¬ entry.Owns s.name slot)
      (himport : entry.FirstImport s.name position target .whole) :
      Exports entry s.localName (.moduleImport position)

/-- A module passes on, under a name, what another module lists under some name. -/
inductive Passes (entry : ModuleEntry) : String → ModuleKey → String → Prop
  /-- `export * from "m"` passes on every name and no default. -/
  | star {index : Nat} {source name : String} {span : Span} {target : ModuleKey}
      (he : entry.resource.exports[index]? = some (.all source none span))
      (htarget : entry.exportTargets[index]? = some (some target)) (hname : name ≠ defaultName) :
      Passes entry name target name
  /-- `export {a as name} from "m"`. -/
  | reexport {index : Nat} {source : String} {specifiers : List SymbolSpecifier}
      {isTypeOnly : Bool} {span : Span} {s : SymbolSpecifier} {target : ModuleKey}
      (he : entry.resource.exports[index]? = some (.named (some source) specifiers isTypeOnly span))
      (htarget : entry.exportTargets[index]? = some (some target)) (hs : s ∈ specifiers) :
      Passes entry s.localName target s.name
  /-- `export {a as name}` of an imported name. -/
  | clauseImport {index position : Nat} {specifiers : List SymbolSpecifier} {isTypeOnly : Bool}
      {span : Span} {s : SymbolSpecifier} {target : ModuleKey} {original : String}
      (he : entry.resource.exports[index]? = some (.named none specifiers isTypeOnly span))
      (hs : s ∈ specifiers) (hown : ∀ slot, ¬ entry.Owns s.name slot)
      (himport : entry.FirstImport s.name position target (.name original)) :
      Passes entry s.localName target original

/-- The item at a place is the first of those that a module exports as its default. -/
structure FirstDefault (entry : ModuleEntry) (slot : Slot) : Prop where
  exports : entry.Exports defaultName slot
  first : ∀ other, entry.Exports defaultName other → other = slot ∨ slot.Before other

/-- The export rules give a name a binding: the module exports an item under the name, or passes on
what the surface of another module lists. -/
inductive Gives (entry : ModuleEntry) (source : ModuleKey → Surface) : String → Binding → Prop
  | exports {name : String} {slot : Slot} (h : entry.Exports name slot) :
      Gives entry source name (entry.binding slot)
  | passes {name original : String} {target : ModuleKey} {binding : Binding}
      (h : entry.Passes name target original)
      (hbinding : binding ∈ (source target).bindings original) :
      Gives entry source name binding

theorem Gives.mono {entry : ModuleEntry} {source source' : ModuleKey → Surface} {name : String}
    {binding : Binding} (h : entry.Gives source name binding)
    (hwithin : ∀ key, (source key).Within (source' key)) : entry.Gives source' name binding := by
  cases h with
  | exports hexports => exact .exports hexports
  | passes hpasses hbinding => exact .passes hpasses (hwithin _ _ _ hbinding)

theorem assignsNothing_iff {entry : ModuleEntry} :
    entry.AssignsNothing ↔ entry.assignedValue? = none := by
  rw [assignedValue?, Option.map_eq_none_iff, List.findSome?_eq_none_iff]
  constructor
  · intro h e he
    cases e with
    | assigned name targets span => exact absurd he (h name targets span)
    | all | named => rfl
  · intro h name targets span he
    cases h _ he

theorem exportTarget?_eq_some_iff {entry : ModuleEntry} {index : Nat} {target : ModuleKey} :
    entry.exportTarget? index = some target ↔ entry.exportTargets[index]? = some (some target) :=
  Option.join_eq_some_iff

theorem importTarget?_eq_some_iff {entry : ModuleEntry} {index : Nat} {target : ModuleKey} :
    entry.importTarget? index = some target ↔ entry.importTargets[index]? = some (some target) :=
  Option.join_eq_some_iff

/-! ## What imports bind -/

theorem imported?_eq_some_iff {i : Import} {name : String} {imported : Imported} :
    imported? name i = some imported ↔ i.Binds name imported := by
  constructor
  · intro h
    cases i with
    | bare => cases h
    | named library specifiers defaultLocal? isTypeOnly span =>
        by_cases hdefault : defaultLocal? = some name
        · rw [imported?, if_pos hdefault] at h
          obtain rfl := hdefault
          obtain rfl := Option.some.inj h
          exact .defaultLocal
        · rw [imported?, if_neg hdefault] at h
          obtain ⟨s, hs, rfl⟩ := Option.map_eq_some_iff.mp h
          obtain ⟨hname, before, after, rfl, hbefore⟩ := List.find?_eq_some_iff_append.mp hs
          obtain rfl := of_decide_eq_true hname
          exact .specifier hdefault fun earlier hearlier => by simpa using hbefore earlier hearlier
    | star library localName isTypeOnly span =>
        rw [imported?, Option.ite_none_right_eq_some, Option.some.injEq] at h
        obtain ⟨rfl, rfl⟩ := h
        exact .star
    | ofDefault library localName span =>
        rw [imported?, Option.ite_none_right_eq_some, Option.some.injEq] at h
        obtain ⟨rfl, rfl⟩ := h
        exact .ofDefault
    | required library localName span =>
        rw [imported?, Option.ite_none_right_eq_some, Option.some.injEq] at h
        obtain ⟨rfl, rfl⟩ := h
        exact .required
  · intro h
    cases h with
    | ofDefault | defaultLocal | star | required => simp [imported?]
    | @specifier library before after s defaultLocal? isTypeOnly span hdefault hfirst =>
        have hbefore : before.find? (·.localName = s.localName) = none :=
          List.find?_eq_none.mpr fun earlier hearlier => by simpa using hfirst earlier hearlier
        simp [imported?, hdefault, List.find?_append, hbefore]

/-- The first import statement with a known target that binds a name, with what it binds. -/
def firstImport? (entry : ModuleEntry) (name : String) : Option (Nat × ModuleKey × Imported) :=
  entry.resource.imports.zipIdx.findSome? fun (i, index) =>
    (entry.importTarget? index).bind fun target =>
      (imported? name i).map fun imported => (index, target, imported)

theorem firstImport?_eq_some_iff {entry : ModuleEntry} {name : String} {position : Nat}
    {target : ModuleKey} {imported : Imported} :
    entry.firstImport? name = some (position, target, imported) ↔
      entry.FirstImport name position target imported := by
  have hstep : ∀ (i : Import) (index : Nat) (found : Nat × ModuleKey × Imported),
      ((entry.importTarget? index).bind fun target =>
        (imported? name i).map fun imported => (index, target, imported)) = some found ↔
      index = found.1 ∧ entry.importTargets[index]? = some (some found.2.1) ∧
        i.Binds name found.2.2 := by
    intro i index found
    simp only [Option.bind_eq_some_iff, Option.map_eq_some_iff, importTarget?_eq_some_iff,
      imported?_eq_some_iff]
    constructor
    · rintro ⟨target, htarget, imported, hbinds, rfl⟩
      exact ⟨rfl, htarget, hbinds⟩
    · rintro ⟨rfl, htarget, hbinds⟩
      exact ⟨_, htarget, _, hbinds, rfl⟩
  rw [firstImport?, findSome?_zipIdx_eq_some_iff]
  simp only [hstep]
  constructor
  · rintro ⟨index, i, hi, ⟨rfl, htarget, hbinds⟩, hfirst⟩
    refine ⟨htarget, ⟨i, hi, hbinds⟩, fun earlier hearlier i' other found hi' hother hfound => ?_⟩
    have hnone := hfirst earlier hearlier i' hi'
    rw [(hstep i' earlier (earlier, other, found)).mpr ⟨rfl, hother, hfound⟩] at hnone
    cases hnone
  · rintro ⟨htarget, ⟨i, hi, hbinds⟩, hfirst⟩
    refine ⟨position, i, hi, ⟨rfl, htarget, hbinds⟩, fun earlier hearlier i' hi' => ?_⟩
    apply Option.eq_none_iff_forall_ne_some.mpr
    intro found hfound
    obtain ⟨-, hother, hfound⟩ := (hstep i' earlier found).mp hfound
    exact hfirst earlier hearlier i' _ _ hi' hother hfound

theorem importsWhole_of_binds {i : Import} {name : String} (h : i.Binds name .whole) :
    ∃ span, ImportsWhole i name span := by
  cases h with
  | star => exact ⟨_, .inl ⟨_, _, rfl⟩⟩
  | required => exact ⟨_, .inr ⟨_, rfl⟩⟩

/-! ## Local names -/

section Local

variable {entry : ModuleEntry} (hfilled : entry.Filled)

include hfilled

theorem mem_ownBindings_iff {name : String} {binding : Binding} :
    binding ∈ entry.ownBindings name ↔
      ∃ slot, entry.Owns name slot ∧ binding = entry.binding slot := by
  simp only [ownBindings, hfilled.placedDeclarations_eq, hfilled.placedResources_eq, List.mem_append,
    List.mem_map, List.mem_filter, List.mem_zipIdx_iff_getElem?, Declaration.isNamed,
    Bool.and_eq_true, Bool.not_eq_true', decide_eq_true_eq]
  constructor
  · rintro (⟨⟨d, index⟩, ⟨hd, hdefault, hname⟩, rfl⟩ | ⟨⟨r, index⟩, ⟨hr, hname⟩, rfl⟩)
    · exact ⟨_, .declaration hd hdefault hname, rfl⟩
    · exact ⟨_, .nested hr hname, rfl⟩
  · rintro ⟨_, ⟨hd, hdefault, hname⟩ | ⟨hr, hname⟩, rfl⟩
    · exact .inl ⟨(_, _), ⟨hd, hdefault, hname⟩, rfl⟩
    · exact .inr ⟨(_, _), ⟨hr, hname⟩, rfl⟩

theorem ownBindings_eq_nil_iff {name : String} :
    entry.ownBindings name = [] ↔ ∀ slot, ¬ entry.Owns name slot := by
  rw [List.eq_nil_iff_forall_not_mem]
  constructor
  · exact fun h slot howns => h _ ((mem_ownBindings_iff hfilled).mpr ⟨slot, howns, rfl⟩)
  · intro h binding hmem
    obtain ⟨slot, howns, -⟩ := (mem_ownBindings_iff hfilled).mp hmem
    exact h slot howns

omit hfilled in
theorem localBindings_of_owns {source : ModuleKey → Surface} {name : String}
    (h : entry.ownBindings name ≠ []) :
    entry.localBindings source name = entry.ownBindings name := by
  unfold localBindings
  split
  next hnil => exact absurd hnil h
  next => rfl

/-- What an import gives, read off the surface of its target. -/
def givenBindings (entry : ModuleEntry) (source : ModuleKey → Surface) :
    Nat × ModuleKey × Imported → List Binding
  | (_, target, .name original) => (source target).bindings original
  | (position, _, .whole) => entry.bindingsAt (.moduleImport position)

omit hfilled in
theorem localBindings_of_not_owns {source : ModuleKey → Surface} {name : String}
    (h : entry.ownBindings name = []) :
    entry.localBindings source name =
      ((entry.firstImport? name).map (entry.givenBindings source)).getD [] := by
  have hstep : ∀ i index, entry.importBindings? source name index i =
      ((entry.importTarget? index).bind fun target =>
        (imported? name i).map fun imported => (index, target, imported)).map
          (entry.givenBindings source) := by
    intro i index
    cases htarget : entry.importTarget? index with
    | none => simp [importBindings?, htarget]
    | some target =>
        cases himported : imported? name i with
        | none => simp [importBindings?, htarget, himported]
        | some imported =>
            cases imported <;> simp [importBindings?, htarget, himported, givenBindings]
  simp only [localBindings, h, firstImport?, List.map_findSome?, hstep]
  rfl

theorem FirstImport.isSome_item? {name : String} {position : Nat} {target : ModuleKey}
    (h : entry.FirstImport name position target .whole) :
    (entry.item? (.moduleImport position)).isSome := by
  obtain ⟨i, hi, hbinds⟩ := h.binds
  obtain ⟨span, hwhole⟩ := importsWhole_of_binds hbinds
  exact hfilled.isSome_item?_moduleImport hi hwhole h.target_eq

omit hfilled in
theorem bindingsAt_of_isSome {slot : Slot} (h : (entry.item? slot).isSome) :
    entry.bindingsAt slot = [entry.binding slot] :=
  if_pos h

/-- What a local name stands for, read off the rules. -/
theorem mem_localBindings_iff {source : ModuleKey → Surface} {name : String} {binding : Binding} :
    binding ∈ entry.localBindings source name ↔
      (∃ slot, entry.Owns name slot ∧ binding = entry.binding slot) ∨
      (∀ slot, ¬ entry.Owns name slot) ∧
        ((∃ position target original, entry.FirstImport name position target (.name original) ∧
            binding ∈ (source target).bindings original) ∨
          ∃ position target, entry.FirstImport name position target .whole ∧
            binding = entry.binding (.moduleImport position)) := by
  by_cases hown : entry.ownBindings name = []
  · have hnone := (ownBindings_eq_nil_iff hfilled).mp hown
    have hnot : ¬ ∃ slot, entry.Owns name slot ∧ binding = entry.binding slot :=
      fun ⟨slot, howns, _⟩ => hnone slot howns
    rw [localBindings_of_not_owns hown, or_iff_right hnot, and_iff_right hnone]
    simp only [← firstImport?_eq_some_iff]
    cases hfound : entry.firstImport? name with
    | none => simp
    | some found =>
        obtain ⟨position, target, original | _⟩ := found
        · simp [givenBindings]
        · have hgiven := bindingsAt_of_isSome
            ((firstImport?_eq_some_iff.mp hfound).isSome_item? hfilled)
          simp [givenBindings, hgiven]
  · have hsome : ¬ ∀ slot, ¬ entry.Owns name slot :=
      fun h => hown ((ownBindings_eq_nil_iff hfilled).mpr h)
    rw [localBindings_of_owns hown, mem_ownBindings_iff hfilled]
    exact ⟨.inl, fun h => h.resolve_right fun h => hsome h.1⟩

end Local

/-! ## Offers -/

section Offers

variable {entry : ModuleEntry} (hfilled : entry.Filled)

include hfilled

theorem gives_of_mem_declarationOffers (source : ModuleKey → Surface) {offer : Offer}
    (h : offer ∈ entry.declarationOffers) : entry.Gives source offer.name offer.binding := by
  rw [declarationOffers, hfilled.placedDeclarations_eq] at h
  obtain ⟨⟨d, index⟩, hd, hoffer⟩ := List.mem_filterMap.mp h
  have hd := List.mem_zipIdx_iff_getElem?.mp hd
  by_cases hdefault : d.isDefault
  · obtain rfl : Offer.mk defaultName (entry.binding (.declared index)) = offer := by
      simpa [hdefault] using hoffer
    exact .exports (.ofDefault hd hdefault)
  · by_cases hexported : d.exported
    · obtain ⟨name, hname, rfl⟩ : ∃ name, d.name? = some name ∧
          Offer.mk name (entry.binding (.declared index)) = offer := by
        simpa [hdefault, hexported] using hoffer
      exact .exports (.declaration hd (by simpa using hdefault) hexported hname)
    · simp [hdefault, hexported] at hoffer

theorem gives_of_mem_nestedOffers (source : ModuleKey → Surface) {offer : Offer}
    (h : offer ∈ entry.nestedOffers) : entry.Gives source offer.name offer.binding := by
  rw [nestedOffers, hfilled.placedResources_eq] at h
  obtain ⟨⟨r, index⟩, hr, hoffer⟩ := List.mem_filterMap.mp h
  have hr := List.mem_zipIdx_iff_getElem?.mp hr
  by_cases hexported : r.exported
  · obtain ⟨name, hname, rfl⟩ : ∃ name, r.name? = some name ∧
        Offer.mk name (entry.binding (.nested index)) = offer := by
      simpa [hexported] using hoffer
    exact .exports (.nested hr hexported hname)
  · simp [hexported] at hoffer

theorem gives_of_mem_starOffers {source : ModuleKey → Surface}
    (hsource : ∀ key, (source key).WellFormed) {library : String} {rename? : Option String}
    {span : Span} {index : Nat}
    (he : entry.resource.exports[index]? = some (.all library rename? span)) {offer : Offer}
    (h : offer ∈ entry.exportOffers source (.all library rename? span) index) :
    entry.Gives source offer.name offer.binding := by
  cases htarget : entry.exportTarget? index with
  | none => simp [exportOffers, htarget] at h
  | some target =>
      have hknown := exportTarget?_eq_some_iff.mp htarget
      cases rename? with
      | none =>
          have hnamed : offer ∈ (source target).namedOffers := by
            simpa [exportOffers, htarget] using h
          obtain ⟨hname, hbinding⟩ := (Surface.mem_namedOffers_iff (hsource target)).mp hnamed
          exact .passes (.star he hknown hname) hbinding
      | some name =>
          have hitem := bindingsAt_of_isSome (hfilled.isSome_item?_starExport he hknown)
          obtain rfl : offer = ⟨name, entry.binding (.starExport index)⟩ := by
            simpa [exportOffers, htarget, hitem] using h
          exact .exports (.star he hknown)

theorem gives_of_mem_clauseOffers {source : ModuleKey → Surface} {library? : Option String}
    {specifiers : List SymbolSpecifier} {isTypeOnly : Bool} {span : Span} {index : Nat}
    (he : entry.resource.exports[index]? = some (.named library? specifiers isTypeOnly span))
    {offer : Offer}
    (h : offer ∈ entry.exportOffers source (.named library? specifiers isTypeOnly span) index) :
    entry.Gives source offer.name offer.binding := by
  cases library? with
  | none =>
      obtain ⟨s, hs, binding, hbinding, rfl⟩ : ∃ s ∈ specifiers,
          ∃ binding ∈ entry.localBindings source s.name, ⟨s.localName, binding⟩ = offer := by
        simpa [exportOffers] using h
      -- own items come first, and an import counts only where there are none
      rcases (mem_localBindings_iff hfilled).mp hbinding with ⟨slot, howns, rfl⟩ |
        ⟨hown, ⟨position, target, original, himport, hgiven⟩ | ⟨position, target, himport, rfl⟩⟩
      · exact .exports (.clause he hs howns)
      · exact .passes (.clauseImport he hs hown himport) hgiven
      · exact .exports (.clauseModule he hs hown himport)
  | some library =>
      cases htarget : entry.exportTarget? index with
      | none => simp [exportOffers, htarget] at h
      | some target =>
          obtain ⟨s, hs, binding, hbinding, rfl⟩ : ∃ s ∈ specifiers,
              ∃ binding ∈ (source target).bindings s.name, ⟨s.localName, binding⟩ = offer := by
            simpa [exportOffers, htarget] using h
          exact .passes (.reexport he (exportTarget?_eq_some_iff.mp htarget) hs) hbinding

omit hfilled in
theorem mem_offers_of_exportOffers {source : ModuleKey → Surface} {e : Export} {index : Nat}
    (he : entry.resource.exports[index]? = some e) {offer : Offer}
    (h : offer ∈ entry.exportOffers source e index) : offer ∈ entry.offers source :=
  List.mem_append_right _ (List.mem_flatMap.mpr
    ⟨(e, index), List.mem_zipIdx_iff_getElem?.mpr he, h⟩)

theorem mem_offers_of_declaration {index : Nat} {d : Declaration} {offer : Offer}
    (hd : entry.resource.declarations[index]? = some d)
    (hoffer : (if d.isDefault then some ⟨defaultName, entry.binding (.declared index)⟩
      else if d.exported then d.name?.map fun name => ⟨name, entry.binding (.declared index)⟩
      else none) = some offer) (source : ModuleKey → Surface) : offer ∈ entry.offers source := by
  refine List.mem_append_left _ (List.mem_append_left _ ?_)
  rw [declarationOffers, hfilled.placedDeclarations_eq]
  exact List.mem_filterMap.mpr ⟨(d, index), List.mem_zipIdx_iff_getElem?.mpr hd, hoffer⟩

theorem Exports.mem_offers {name : String} {slot : Slot} (h : entry.Exports name slot)
    (source : ModuleKey → Surface) : ⟨name, entry.binding slot⟩ ∈ entry.offers source := by
  cases h with
  | ofDefault hd hdefault => exact mem_offers_of_declaration hfilled hd (by simp [hdefault]) source
  | declaration hd hdefault hexported hname =>
      exact mem_offers_of_declaration hfilled hd (by simp [hdefault, hexported, hname]) source
  | @nested index r name hr hexported hname =>
      refine List.mem_append_left _ (List.mem_append_right _ ?_)
      rw [nestedOffers, hfilled.placedResources_eq]
      exact List.mem_filterMap.mpr
        ⟨(r, index), List.mem_zipIdx_iff_getElem?.mpr hr, by simp [hexported, hname]⟩
  | star he htarget =>
      have hitem := bindingsAt_of_isSome (hfilled.isSome_item?_starExport he htarget)
      apply mem_offers_of_exportOffers he
      simp [exportOffers, exportTarget?_eq_some_iff.mpr htarget, hitem]
  | @clause _ _ _ _ s slot he hs hown =>
      have hlocal : entry.binding slot ∈ entry.localBindings source s.name :=
        (mem_localBindings_iff hfilled).mpr (.inl ⟨slot, hown, rfl⟩)
      exact mem_offers_of_exportOffers he (List.mem_flatMap.mpr
        ⟨s, hs, List.mem_map.mpr ⟨_, hlocal, rfl⟩⟩)
  | @clauseModule _ position _ _ _ s target he hs hown himport =>
      have hlocal : entry.binding (.moduleImport position) ∈ entry.localBindings source s.name :=
        (mem_localBindings_iff hfilled).mpr (.inr ⟨hown, .inr ⟨position, target, himport, rfl⟩⟩)
      exact mem_offers_of_exportOffers he (List.mem_flatMap.mpr
        ⟨s, hs, List.mem_map.mpr ⟨_, hlocal, rfl⟩⟩)

theorem Passes.mem_offers {name original : String} {target : ModuleKey}
    (h : entry.Passes name target original) {source : ModuleKey → Surface}
    (hsource : ∀ key, (source key).WellFormed) {binding : Binding}
    (hbinding : binding ∈ (source target).bindings original) :
    ⟨name, binding⟩ ∈ entry.offers source := by
  cases h with
  | star he htarget hname =>
      have hnamed : ⟨name, binding⟩ ∈ (source target).namedOffers :=
        (Surface.mem_namedOffers_iff (hsource target)).mpr ⟨hname, hbinding⟩
      apply mem_offers_of_exportOffers he
      simpa [exportOffers, exportTarget?_eq_some_iff.mpr htarget] using hnamed
  | @reexport _ _ _ _ _ s _ he htarget hs =>
      apply mem_offers_of_exportOffers he
      simp only [exportOffers, exportTarget?_eq_some_iff.mpr htarget]
      exact List.mem_flatMap.mpr ⟨s, hs, List.mem_map.mpr ⟨_, hbinding, rfl⟩⟩
  | @clauseImport _ position _ _ _ s _ _ he hs hown himport =>
      have hlocal : binding ∈ entry.localBindings source s.name :=
        (mem_localBindings_iff hfilled).mpr
          (.inr ⟨hown, .inl ⟨position, target, original, himport, hbinding⟩⟩)
      exact mem_offers_of_exportOffers he (List.mem_flatMap.mpr
        ⟨s, hs, List.mem_map.mpr ⟨_, hlocal, rfl⟩⟩)

/-- The offers of a module are exactly what the export rules give. -/
theorem mem_offers_iff {source : ModuleKey → Surface} (hsource : ∀ key, (source key).WellFormed)
    {name : String} {binding : Binding} :
    ⟨name, binding⟩ ∈ entry.offers source ↔ entry.Gives source name binding := by
  constructor
  · intro h
    rcases List.mem_append.mp h with h | h
    · rcases List.mem_append.mp h with h | h
      · exact gives_of_mem_declarationOffers hfilled source h
      · exact gives_of_mem_nestedOffers hfilled source h
    · obtain ⟨⟨e, index⟩, he, h⟩ := List.mem_flatMap.mp h
      have he := List.mem_zipIdx_iff_getElem?.mp he
      cases e with
      | all => exact gives_of_mem_starOffers hfilled hsource he h
      | named => exact gives_of_mem_clauseOffers hfilled he h
      | assigned => simp [exportOffers] at h
  · intro h
    cases h with
    | exports hexports => exact hexports.mem_offers hfilled source
    | passes hpasses hbinding => exact hpasses.mem_offers hfilled hsource hbinding

end Offers

end ModuleEntry

end ExportIndex
