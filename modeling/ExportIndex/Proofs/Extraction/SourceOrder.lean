import ExportIndex.Proofs.Comments.Resources
import ExportIndex.Proofs.Extraction.Containers

/-!
# Source order

Where the spans of a tree are nested as its nodes are, and children follow one another, the resources of
its document mirror the source: what a resource holds lies inside its span and in source order, and keeps
clear of the resources nested in it.
-/

namespace ExportIndex

/-! ## Spans -/

namespace Span

variable {s t inner middle outer : Span}

/-- A span lies within another. -/
def Within (inner outer : Span) : Prop := outer.start ≤ inner.start ∧ inner.stop ≤ outer.stop

/-- A span ends before another begins. -/
def Before (s t : Span) : Prop := s.stop ≤ t.start

/-- Two spans do not overlap. -/
def Apart (s t : Span) : Prop := s.Before t ∨ t.Before s

theorem Apart.symm (h : s.Apart t) : t.Apart s := Or.symm h

theorem Within.refl (s : Span) : s.Within s := ⟨Nat.le_refl _, Nat.le_refl _⟩

theorem Within.trans (h : inner.Within middle) (hmiddle : middle.Within outer) : inner.Within outer :=
  ⟨Nat.le_trans hmiddle.1 h.1, Nat.le_trans h.2 hmiddle.2⟩

theorem Before.within {inner inner' : Span} (h : s.Before t) (hs : inner.Within s)
    (ht : inner'.Within t) : inner.Before inner' :=
  Nat.le_trans hs.2 (Nat.le_trans h ht.1)

end Span

/-- The spans of children lie within the span of their parent and follow one another without overlap. -/
inductive Node.WellPlaced : Node → Prop where
  | intro {node : Node} (ordered : node.span.start ≤ node.span.stop)
      (within : ∀ child ∈ node.children, child.span.Within node.span)
      (apart : node.children.Pairwise fun child next => child.span.Before next.span)
      (below : ∀ child ∈ node.children, child.WellPlaced) : WellPlaced node

namespace Node.WellPlaced

variable {node child : Node}

theorem ordered (h : node.WellPlaced) : node.span.start ≤ node.span.stop := by
  cases h with
  | intro ordered => exact ordered

theorem within (h : node.WellPlaced) (hchild : child ∈ node.children) :
    child.span.Within node.span := by
  cases h with
  | intro _ within => exact within child hchild

theorem apart (h : node.WellPlaced) :
    node.children.Pairwise fun child next => child.span.Before next.span := by
  cases h with
  | intro _ _ apart => exact apart

theorem of_mem_children (h : node.WellPlaced) (hchild : child ∈ node.children) :
    child.WellPlaced := by
  cases h with
  | intro _ _ _ below => exact below child hchild

end Node.WellPlaced

theorem Node.wellPlaced_mk {kind : String} {named missing : Bool} {span : Span} {fields : List String}
    {children : List Node} : WellPlaced ⟨kind, named, missing, span, fields, children⟩ ↔
      span.start ≤ span.stop ∧ (∀ child ∈ children, child.span.Within span) ∧
        (children.Pairwise fun child next => child.span.Before next.span) ∧
          ∀ child ∈ children, child.WellPlaced := by
  constructor
  · rintro ⟨hordered, hwithin, hapart, hbelow⟩
    exact ⟨hordered, hwithin, hapart, hbelow⟩
  · rintro ⟨hordered, hwithin, hapart, hbelow⟩
    exact .intro hordered hwithin hapart hbelow

theorem Site.Under.wellPlaced {top site : Site} (hunder : top.Under site) (h : top.node.WellPlaced) :
    site.node.WellPlaced ∧ site.node.span.Within top.node.span := by
  induction hunder with
  | refl => exact ⟨h, .refl _⟩
  | tail _ hchild ih =>
      have hmem := node_mem_of_mem_children hchild
      exact ⟨ih.1.of_mem_children hmem, (ih.1.within hmem).trans ih.2⟩

/-! ## Pieces -/

namespace Piece

def span : Piece → Span
  | importing i => i.span
  | declaring d => d.span
  | exporting e => e.span
  | opening o => o.site.node.span

def opens (piece : Piece) : Bool := piece.opening?.isSome

/-- A kind of contribution stands where its pieces stand, which all open containers or all do not. -/
def Places {α : Type} (kind? : Piece → Option α) (place : α → Span) (opening : Bool) : Prop :=
  ∀ piece a, kind? piece = some a → place a = piece.span ∧ piece.opens = opening

theorem places_import? : Places import? Import.span false := by
  intro piece i h
  cases piece <;> cases h
  exact ⟨rfl, rfl⟩

theorem places_declaration? : Places declaration? Declaration.span false := by
  intro piece d h
  cases piece <;> cases h
  exact ⟨rfl, rfl⟩

theorem places_export? : Places export? Export.span false := by
  intro piece e h
  cases piece <;> cases h
  exact ⟨rfl, rfl⟩

theorem places_opening? : Places opening? (·.site.node.span) true := by
  intro piece o h
  cases piece <;> cases h
  exact ⟨rfl, rfl⟩

/-- A piece begins no later than another, and does not overlap it if one of them opens a container. -/
structure Precedes (piece next : Piece) : Prop where
  start_le : piece.span.start ≤ next.span.start
  before : piece.opens = true ∨ next.opens = true → piece.span.Before next.span

/-- Pieces lie inside a span, in source order. -/
structure InOrder (outer : Span) (pieces : List Piece) : Prop where
  ordered : ∀ piece ∈ pieces, piece.span.start ≤ piece.span.stop
  within : ∀ piece ∈ pieces, piece.span.Within outer
  precedes : pieces.Pairwise Precedes

namespace InOrder

variable {s inner outer : Span} {pieces : List Piece}

theorem nil (outer : Span) : InOrder outer [] := ⟨by simp, by simp, .nil⟩

theorem mono (h : InOrder inner pieces) (hinner : inner.Within outer) : InOrder outer pieces :=
  ⟨h.ordered, fun piece hpiece => (h.within piece hpiece).trans hinner, h.precedes⟩

theorem singleton {piece : Piece} (hspan : piece.span = s) (h : s.start ≤ s.stop) :
    InOrder s [piece] where
  ordered := by simpa [hspan] using h
  within := by simpa [hspan] using Span.Within.refl s
  precedes := List.pairwise_singleton _ _

/-- Pieces with one span are in order if they open nothing. -/
theorem of_span_eq (hordered : s.start ≤ s.stop)
    (h : ∀ piece ∈ pieces, piece.span = s ∧ piece.opens = false) : InOrder s pieces where
  ordered piece hpiece := by rwa [(h piece hpiece).1]
  within piece hpiece := by
    rw [(h piece hpiece).1]
    exact .refl s
  precedes := by
    apply List.pairwise_of_forall_mem_list
    intro piece hpiece next hnext
    obtain ⟨hspan, hopens⟩ := h piece hpiece
    obtain ⟨hspan', hopens'⟩ := h next hnext
    exact ⟨Nat.le_of_eq (by rw [hspan, hspan']), by simp [hopens, hopens']⟩

/-- Pieces from places that follow one another are in order if they are at each place. -/
theorem flatMap {α : Type} {items : List α} {place : α → Span} {contribution : α → List Piece}
    (hitems : items.Pairwise fun item next => (place item).Before (place next))
    (hwithin : ∀ item ∈ items, (place item).Within outer)
    (h : ∀ item ∈ items, InOrder (place item) (contribution item)) :
    InOrder outer (items.flatMap contribution) where
  ordered piece hpiece := by
    obtain ⟨item, hitem, hpiece⟩ := List.mem_flatMap.mp hpiece
    exact (h item hitem).ordered piece hpiece
  within piece hpiece := by
    obtain ⟨item, hitem, hpiece⟩ := List.mem_flatMap.mp hpiece
    exact ((h item hitem).within piece hpiece).trans (hwithin item hitem)
  precedes := by
    refine List.pairwise_flatMap.mpr ⟨fun item hitem => (h item hitem).precedes, ?_⟩
    apply hitems.imp_of_mem
    intro item next hitem hnext hbefore piece hpiece piece' hpiece'
    have hpieces : piece.span.Before piece'.span :=
      hbefore.within ((h item hitem).within piece hpiece) ((h next hnext).within piece' hpiece')
    exact ⟨Nat.le_trans ((h item hitem).ordered piece hpiece) hpieces, fun _ => hpieces⟩

/-- A piece that opens a container overlaps none that does not. -/
theorem apart (h : InOrder outer pieces) {piece other : Piece} (hpiece : piece ∈ pieces)
    (hother : other ∈ pieces) (hopens : piece.opens = false) (hother' : other.opens = true) :
    piece.span.Apart other.span := by
  have hapart : pieces.Pairwise fun piece other =>
      piece.opens ≠ other.opens → piece.span.Apart other.span := by
    apply h.precedes.imp
    intro piece other hprecedes hne
    apply Or.inl (hprecedes.before _)
    cases hopens : piece.opens with
    | true => exact .inl rfl
    | false =>
        exact .inr ((Bool.not_eq_false _).mp fun hother => hne (hopens.trans hother.symm))
  have hflip := hapart.imp fun hapart hne => (hapart (Ne.symm hne)).symm
  exact hapart.forall_of_forall_of_flip (fun _ _ hne => absurd rfl hne) hflip hpiece hother
    (by simp [hopens, hother'])

end InOrder

end Piece

/-! ## Statements -/

namespace Node

variable {source : String} {node : Node}

theorem span_of_mem_clauseImports {library : String} {isTypeOnly : Bool} {span : Span} {clause : Node}
    {i : Import} (h : i ∈ clause.clauseImports source library isTypeOnly span) : i.span = span := by
  unfold clauseImports at h
  dsimp only at h
  split at h
  · rcases List.mem_append.mp h with hdefault | hstar
    · obtain ⟨_, -, rfl⟩ := List.mem_map.mp hdefault
      rfl
    · obtain rfl := List.mem_singleton.mp hstar
      rfl
  · obtain rfl := List.mem_singleton.mp h
    rfl
  · obtain ⟨_, -, rfl⟩ := List.mem_map.mp h
    rfl

theorem span_of_mem_imports {i : Import} (h : i ∈ node.imports source) : i.span = node.span := by
  unfold imports at h
  split at h
  · unfold requireImport? at h
    split at h
    · obtain rfl := List.mem_singleton.mp h
      rfl
    · cases h
  · split at h
    · cases h
    · split at h
      · obtain rfl := List.mem_singleton.mp h
        rfl
      · exact span_of_mem_clauseImports h

theorem span_of_export? {e : Export} (h : node.export? source = some e) : e.span = node.span := by
  unfold export? at h
  split at h
  · obtain ⟨_, -, rfl⟩ := Option.map_eq_some_iff.mp h
    rfl
  · split at h
    · cases h
    · unfold clauseExport? at h
      split at h
      · obtain rfl := Option.some.inj h
        rfl
      · obtain ⟨_, -, hall⟩ := Option.bind_eq_some_iff.mp h
        split at hall
        · obtain rfl := Option.some.inj hall
          rfl
        · cases hall

/-- The variables of a construct stand at its declarators, which follow one another. -/
theorem inOrder_declaredVariables {exported : Bool} {scope : VariableScope} (h : node.WellPlaced) :
    Piece.InOrder node.span ((node.declaredVariables source exported scope).map
      fun v => .declaring (.ofVariable v)) := by
  rw [declaredVariables, List.map_flatMap]
  have hdeclarators : ∀ declarator ∈ node.childrenOfKind ["variable_declarator"],
      declarator ∈ node.children := by
    intro declarator hmem
    exact (List.mem_filter.mp (List.mem_filter.mp hmem).1).1
  refine .flatMap ((h.apart.filter _).filter _)
    (fun declarator hmem => h.within (hdeclarators declarator hmem)) fun declarator hmem => ?_
  have hordered := (h.of_mem_children (hdeclarators declarator hmem)).ordered
  apply Piece.InOrder.of_span_eq hordered
  intro piece hpiece
  obtain ⟨v, hv, rfl⟩ := List.mem_map.mp hpiece
  unfold declaratorVariables at hv
  split at hv
  · cases hv
  · obtain ⟨name, -, rfl⟩ := List.mem_map.mp hv
    exact ⟨rfl, rfl⟩

theorem inOrder_declarations {exported : Bool} (h : node.WellPlaced) :
    Piece.InOrder node.span ((node.declarations source exported).map .declaring) := by
  have hintroduces := introduces_declarations source exported node
  generalize node.declarations source exported = declarations at hintroduces ⊢
  cases hintroduces with
  | single d _ _ hspan => exact .singleton hspan h.ordered
  | declarators =>
      rw [List.map_map]
      exact inOrder_declaredVariables h
  | nothing => exact .nil _

end Node

/-- What a statement contributes lies inside it, in source order. -/
theorem Site.Contributes.inOrder {source : String} {exportsMembers : Bool} {statement : Site}
    {pieces : List Piece} (h : statement.Contributes source exportsMembers pieces)
    (hplaced : statement.node.WellPlaced) : Piece.InOrder statement.node.span pieces := by
  cases h with
  | imports =>
      apply Piece.InOrder.of_span_eq hplaced.ordered
      intro piece hpiece
      obtain ⟨i, hi, rfl⟩ := List.mem_map.mp hpiece
      exact ⟨Node.span_of_mem_imports hi, rfl⟩
  | links =>
      apply Piece.InOrder.of_span_eq hplaced.ordered
      intro piece hpiece
      obtain ⟨e, he, rfl⟩ := List.mem_map.mp hpiece
      exact ⟨Node.span_of_export? (Option.mem_toList.mp he), rfl⟩
  | defaults _ d _ hspan => exact .singleton hspan hplaced.ordered
  | declares _ construct hunder =>
      obtain ⟨hconstruct, hwithin⟩ := hunder.wellPlaced hplaced
      exact (Node.inOrder_declarations hconstruct).mono hwithin
  | opens _ construct hunder _ ambient o ho =>
      obtain ⟨hconstruct, hwithin⟩ := hunder.wellPlaced hplaced
      have hspan : (Piece.opening o).span = construct.node.span := by
        rw [Piece.span, site_of_opening? ho]
      exact (Piece.InOrder.singleton hspan hconstruct.ordered).mono hwithin
  | opensGlobal _ construct hunder _ o ho =>
      obtain ⟨hconstruct, hwithin⟩ := hunder.wellPlaced hplaced
      have hspan : (Piece.opening o).span = construct.node.span := by
        rw [Piece.span, site_of_globalOpening? ho]
      exact (Piece.InOrder.singleton hspan hconstruct.ordered).mono hwithin
  | nothing => exact .nil _

/-! ## Containers -/

namespace Container

variable {source : String} {whole : Span} {c : Container}

/-- The span of what opens a container, and that of the whole tree if nothing does. -/
def place (whole : Span) (c : Container) : Span := (c.owner?.map (·.node.span)).getD whole

/-- The body of a container is well placed, inside what opens the container. -/
def WellPlaced (whole : Span) (c : Container) : Prop :=
  ∀ body ∈ c.body?, body.node.WellPlaced ∧ body.node.span.Within (c.place whole)

theorem exists_body_of_mem_statements {statement : Site} (h : statement ∈ c.statements) :
    ∃ body ∈ c.body?, statement ∈ body.children := by
  obtain ⟨body, hbody, hstatement⟩ := List.mem_flatMap.mp h
  exact ⟨body, Option.mem_toList.mp hbody, Site.mem_children_of_mem_namedChildren hstatement⟩

theorem WellPlaced.of_mem_statements (h : c.WellPlaced whole) {statement : Site}
    (hstatement : statement ∈ c.statements) : statement.node.WellPlaced := by
  obtain ⟨body, hbody, hchild⟩ := exists_body_of_mem_statements hstatement
  exact (h body hbody).1.of_mem_children (Site.node_mem_of_mem_children hchild)

theorem WellPlaced.pairwise_statements (h : c.WellPlaced whole) :
    c.statements.Pairwise fun statement next => statement.node.span.Before next.node.span := by
  rw [statements]
  cases hbody : c.body? with
  | none => simp
  | some body =>
      have happart := (h body hbody).1.apart
      rw [← Site.map_node_children, List.pairwise_map] at happart
      simpa [Site.namedChildren] using happart.filter (·.node.named)

/-- What the statements of a container contribute lies inside it, in source order. -/
theorem WellPlaced.inOrder (h : c.WellPlaced whole) :
    Piece.InOrder (c.place whole) (c.pieces source) := by
  refine .flatMap h.pairwise_statements (fun statement hstatement => ?_) fun statement hstatement => ?_
  · obtain ⟨body, hbody, hchild⟩ := exists_body_of_mem_statements hstatement
    have hplaced := h body hbody
    exact (hplaced.1.within (Site.node_mem_of_mem_children hchild)).trans hplaced.2
  · exact (Site.contributes_pieces source c.exportsMembers statement).inOrder
      (h.of_mem_statements hstatement)

theorem WellPlaced.of_mem_openings (h : c.WellPlaced whole) {opening : Site × Opening}
    (hopening : opening ∈ c.openings source) : opening.2.container.WellPlaced whole := by
  have hstands := standsIn_of_mem_openings hopening
  have hstatement := h.of_mem_statements (mem_contributed_iff.mp hopening).1
  obtain ⟨hsite, -⟩ := hstands.under.wellPlaced hstatement
  intro body hbody
  have hmem := Site.node_mem_of_mem_children (hstands.body_mem body hbody)
  exact ⟨hsite.of_mem_children hmem, hsite.within hmem⟩

theorem WellPlaced.of_at? {path : List Nat} {found : Container} (h : c.WellPlaced whole)
    (hfound : c.at? source path = some found) : found.WellPlaced whole := by
  induction path generalizing c with
  | nil =>
      obtain rfl := Option.some.inj hfound
      exact h
  | cons index rest ih =>
      obtain ⟨opening, hopening, hrest⟩ := Option.bind_eq_some_iff.mp hfound
      exact ih (h.of_mem_openings (List.mem_of_getElem? hopening)) hrest

section Kinds

variable {α : Type} {kind? : Piece → Option α} {place : α → Span} {opening : Bool}

theorem exists_piece_of_mem_contributed (hplace : Piece.Places kind? place opening) {a : Site × α}
    (h : a ∈ c.contributed source kind?) :
    ∃ piece ∈ c.pieces source, piece.opens = opening ∧ piece.span = place a.2 := by
  obtain ⟨hstatement, piece, hpiece, heq⟩ := mem_contributed_iff.mp h
  obtain ⟨hspan, hopens⟩ := hplace piece a.2 heq
  exact ⟨piece, List.mem_flatMap.mpr ⟨a.1, hstatement, hpiece⟩, hopens, hspan.symm⟩

/-- Contributions of one kind are in source order. -/
theorem WellPlaced.pairwise_contributed (h : c.WellPlaced whole)
    (hplace : Piece.Places kind? place opening) :
    (c.contributed source kind?).Pairwise fun a next => (place a.2).start ≤ (place next.2).start ∧
      (opening = true → (place a.2).Before (place next.2)) := by
  have hfiltered : ((c.pieces source).filterMap kind?).Pairwise fun a next =>
      (place a).start ≤ (place next).start ∧ (opening = true → (place a).Before (place next)) := by
    apply h.inOrder.precedes.filterMap kind?
    intro piece next hprecedes a ha b hb
    obtain ⟨hspan, hopens⟩ := hplace piece a ha
    rw [hspan, (hplace next b hb).1]
    exact ⟨hprecedes.start_le, fun hopening => hprecedes.before (.inl (hopens.trans hopening))⟩
  rwa [← map_snd_contributed, List.pairwise_map] at hfiltered

end Kinds

end Container

/-! ## Resources -/

namespace Resource

/-- The spans of what a resource declares, imports and exports itself. -/
def ownSpans (r : Resource) : List Span :=
  r.declarations.map Declaration.span ++ r.imports.map Import.span ++ r.exports.map Export.span

def nestedSpans (r : Resource) : List Span := r.resources.filterMap (·.span?)

/-- A resource mirrors the container that it is read from, in a tree with a given span. -/
structure Mirrors (source : String) (whole : Span) (c : Container) (r : Resource) : Prop where
  declarations : r.declarations.Pairwise fun d next => d.span.start ≤ next.span.start
  imports : r.imports.Pairwise fun i next => i.span.start ≤ next.span.start
  exports : r.exports.Pairwise fun e next => e.span.start ≤ next.span.start
  nested : r.nestedSpans.Pairwise Span.Before
  located : ∀ nested ∈ r.resources, nested.span?.isSome = true
  within : ∀ span ∈ r.ownSpans ++ r.nestedSpans, span.Within (r.span?.getD whole)
  apart : ∀ span ∈ r.ownSpans, ∀ inner ∈ r.nestedSpans, span.Apart inner
  /-- No two functions share a name. -/
  functions : r.declarations.Pairwise fun d next =>
    ∀ name, d.isFunctionNamed name = true → next.isFunctionNamed name = false
  /-- The declarations are those that the statements introduce, apart from functions that have the name
  of an earlier one. Export clauses may have changed their flags. -/
  folded : List.Forall₂ (fun kept d => d = kept.2.setExported d.exported) (c.kept source) r.declarations

end Resource

theorem Declaration.span_setExported (d : Declaration) (exported : Bool) :
    (d.setExported exported).span = d.span := by
  cases d <;> rfl

theorem Declaration.isFunctionNamed_setExported (d : Declaration) (exported : Bool) (name : String) :
    (d.setExported exported).isFunctionNamed name = d.isFunctionNamed name := by
  cases d <;> rfl

namespace Container.Holds

variable {source : String} {whole : Span} {c : Container} {r : Resource} (h : c.Holds source r)

include h

theorem place_eq : r.span?.getD whole = c.place whole := by
  rw [h.span?_eq, place]

theorem map_span?_resources : r.resources.map (·.span?) =
    (c.openings source).map fun opening => some opening.2.site.node.span :=
  (map_eq_iff_forall₂.mpr (h.shows.imp fun _ _ hshows => hshows.span?_eq.symm)).symm

theorem nestedSpans_eq : r.nestedSpans = (c.openings source).map (·.2.site.node.span) := by
  have hspans := congrArg (List.filterMap id) h.map_span?_resources
  rw [List.filterMap_map, List.filterMap_map] at hspans
  rw [Resource.nestedSpans, ← List.filterMap_eq_map]
  exact hspans

theorem exists_piece_of_mem_nestedSpans {span : Span} (hspan : span ∈ r.nestedSpans) :
    ∃ piece ∈ c.pieces source, piece.opens = true ∧ piece.span = span := by
  rw [h.nestedSpans_eq] at hspan
  obtain ⟨opening, hopening, rfl⟩ := List.mem_map.mp hspan
  exact exists_piece_of_mem_contributed Piece.places_opening? hopening

theorem exists_piece_of_mem_ownSpans {span : Span} (hspan : span ∈ r.ownSpans) :
    ∃ piece ∈ c.pieces source, piece.opens = false ∧ piece.span = span := by
  rw [Resource.ownSpans, h.declarations_eq, h.imports_eq, h.exports_eq, List.map_map, List.map_map,
    List.mem_append, List.mem_append] at hspan
  rcases hspan with (hdeclaration | himport) | hexport
  · obtain ⟨kept, hkept, rfl⟩ := List.mem_map.mp hdeclaration
    rw [Function.comp_apply, Declaration.markExported_eq_setExported, Declaration.span_setExported]
    exact exists_piece_of_mem_contributed Piece.places_declaration?
      ((firstOverloads_sublist _ _).subset hkept)
  · obtain ⟨i, hi, rfl⟩ := List.mem_map.mp himport
    exact exists_piece_of_mem_contributed Piece.places_import? hi
  · obtain ⟨e, he, rfl⟩ := List.mem_map.mp hexport
    exact exists_piece_of_mem_contributed Piece.places_export? he

/-- What a well-placed container holds mirrors it. -/
theorem mirrors (hplaced : c.WellPlaced whole) : r.Mirrors source whole c where
  declarations := by
    have hkept := (hplaced.pairwise_contributed Piece.places_declaration?).sublist
      (firstOverloads_sublist Prod.snd (c.introduced source))
    rw [h.declarations_eq, List.pairwise_map]
    apply hkept.imp
    intro kept next hle
    rw [Declaration.markExported_eq_setExported, Declaration.span_setExported,
      Declaration.markExported_eq_setExported, Declaration.span_setExported]
    exact hle.1
  imports := by
    rw [h.imports_eq, List.pairwise_map]
    exact (hplaced.pairwise_contributed Piece.places_import?).imp And.left
  exports := by
    have hexports : (c.contributed source Piece.export?).Pairwise fun e next =>
        e.2.span.start ≤ next.2.span.start :=
      (hplaced.pairwise_contributed Piece.places_export?).imp And.left
    have hspans : (r.exports.map Export.span).Pairwise fun s t => s.start ≤ t.start := by
      rwa [h.exports_eq, List.pairwise_map]
    rwa [List.pairwise_map] at hspans
  nested := by
    rw [h.nestedSpans_eq, List.pairwise_map]
    exact (hplaced.pairwise_contributed Piece.places_opening?).imp fun hbefore => hbefore.2 rfl
  located nested hnested := by
    have hspan := List.mem_map_of_mem (f := Resource.span?) hnested
    rw [h.map_span?_resources] at hspan
    obtain ⟨opening, -, heq⟩ := List.mem_map.mp hspan
    rw [← heq, Option.isSome_some]
  within := by
    intro span hspan
    rw [h.place_eq]
    rcases List.mem_append.mp hspan with hown | hnested
    · obtain ⟨piece, hpiece, -, rfl⟩ := h.exists_piece_of_mem_ownSpans hown
      exact hplaced.inOrder.within piece hpiece
    · obtain ⟨piece, hpiece, -, rfl⟩ := h.exists_piece_of_mem_nestedSpans hnested
      exact hplaced.inOrder.within piece hpiece
  apart := by
    intro span hspan inner hinner
    obtain ⟨piece, hpiece, hopens, rfl⟩ := h.exists_piece_of_mem_ownSpans hspan
    obtain ⟨other, hother, hopens', rfl⟩ := h.exists_piece_of_mem_nestedSpans hinner
    exact hplaced.inOrder.apart hpiece hother hopens hopens'
  functions := by
    rw [h.declarations_eq, List.pairwise_map]
    apply (pairwise_firstOverloads Prod.snd (c.introduced source)).imp
    intro kept next hdistinct name hname
    rw [Declaration.markExported_eq_setExported, Declaration.isFunctionNamed_setExported] at hname ⊢
    exact hdistinct name hname
  folded := by
    rw [h.declarations_eq, List.forall₂_map_right_iff, List.forall₂_same]
    exact fun kept _ => Declaration.markExported_eq_setExported _ _

end Container.Holds

/-- The resources of a document mirror its source at every level, if the tree of the document is well
placed. -/
theorem Document.mirrors_toResource {document : Document} (h : document.root.WellPlaced)
    (file root : Path) (path : List Nat) :
    Option.Rel (Resource.Mirrors document.text document.root.span)
      (document.container.at? document.text path) ((document.toResource file root).at? path) := by
  have hplaced : document.container.WellPlaced document.root.span := by
    intro body hbody
    obtain rfl := Option.mem_some_iff.mp hbody
    exact ⟨h, .refl _⟩
  have hrel := document.rel_at?_toResource file root path
  cases hcontainer : document.container.at? document.text path with
  | none =>
      rw [hcontainer] at hrel
      generalize (document.toResource file root).at? path = r? at hrel ⊢
      cases hrel with
      | none => exact .none
  | some c =>
      obtain ⟨r, hr, hholds⟩ := exists_of_rel hrel hcontainer
      rw [hr]
      exact .some (hholds.mirrors (hplaced.of_at? hcontainer))

/-- A function with an overload, and a namespace with a class and an enum between the two. -/
def Document.overloaded : Document where
  text :=
    "function f(); namespace N \x7bclass A\x7b\x7d enum B\x7b\x7d\x7d function f()\x7b\x7d export \x7bf\x7d;"
  root :=
    part "program" 0 73 []
      [part "function_signature" 0 13 [] [mark "function" 0 8, part "identifier" 9 10 ["name"] []],
        part "expression_statement" 14 46 []
          [part "internal_module" 14 46 []
            [mark "namespace" 14 23, part "identifier" 24 25 ["name"] [],
              part "statement_block" 26 46 ["body"]
                [part "class_declaration" 27 36 []
                  [mark "class" 27 32, part "type_identifier" 33 34 ["name"] []],
                  part "enum_declaration" 37 45 []
                    [mark "enum" 37 41, part "identifier" 42 43 ["name"] []]]]],
        part "function_declaration" 47 61 []
          [mark "function" 47 55, part "identifier" 56 57 ["name"] []],
        part "export_statement" 62 73 []
          [mark "export" 62 68,
            part "export_clause" 69 72 []
              [part "export_specifier" 70 71 [] [part "identifier" 70 71 ["name"] []]]]]

theorem Document.mirrors_overloaded :
    overloaded.root.WellPlaced ∧
      (overloaded.container.introduced overloaded.text).map (·.2.span) = [⟨0, 13⟩, ⟨47, 61⟩] ∧
      (overloaded.toResource ⟨"/w/a.ts"⟩ ⟨"/w"⟩).declarations.map Declaration.span = [⟨0, 13⟩] ∧
      (overloaded.container.at? overloaded.text [0]).map
        (fun c => (c.introduced overloaded.text).map (·.2.span)) = some [⟨27, 36⟩, ⟨37, 45⟩] ∧
      ∀ path, Option.Rel (Resource.Mirrors overloaded.text overloaded.root.span)
        (overloaded.container.at? overloaded.text path)
        ((overloaded.toResource ⟨"/w/a.ts"⟩ ⟨"/w"⟩).at? path) := by
  have hplaced : overloaded.root.WellPlaced := by
    simp [overloaded, part, mark, Node.wellPlaced_mk, Span.Within, Span.Before]
  refine ⟨hplaced, by decide +kernel, ?_, by decide +kernel,
    fun path => mirrors_toResource hplaced ⟨"/w/a.ts"⟩ ⟨"/w"⟩ path⟩
  rw [view_toResource Resource.declarations_withoutUsages]
  decide +kernel

end ExportIndex
