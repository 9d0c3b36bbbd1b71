import ExportIndex.Proofs.Extraction.Statements
import Mathlib.Data.List.Basic
import Mathlib.Data.List.Flatten

/-!
# Openings of a body

A statement opens at most one namespace or module, at the site of the statement or below it. So the
openings of a body stand apart from each other, and a property of bodies can be proved from the
bodies of their openings.
-/

namespace ExportIndex

namespace Opening

/-- An opening is what a namespace, a module or a `declare global` block at its site opens. -/
def StandsFor (source : String) (o : Opening) : Prop :=
  o.site.globalOpening? = some o ∨ ∃ exported ambient, o.site.opening? source exported ambient = some o

theorem StandsFor.body_mem {source : String} {o : Opening} {body : Site} (h : o.StandsFor source)
    (hbody : o.body? = some body) : body ∈ o.site.children := by
  rcases h with hglobal | ⟨exported, ambient, hopening⟩
  · obtain ⟨block, hblock, heq⟩ := Option.map_eq_some_iff.mp hglobal
    rw [← heq] at hbody ⊢
    obtain rfl := Option.some.inj hbody
    exact Site.mem_children_of_childOfKind? hblock
  · obtain ⟨name, -, heq⟩ := Option.map_eq_some_iff.mp hopening
    rw [← heq] at hbody ⊢
    exact Site.mem_children_of_field? hbody

/-- Something stands below the site of an opening, its name or its body. -/
theorem StandsFor.children_ne_nil {source : String} {o : Opening} (h : o.StandsFor source) :
    o.site.children ≠ [] := by
  rcases h with hglobal | ⟨exported, ambient, hopening⟩
  · obtain ⟨block, hblock, -⟩ := Option.map_eq_some_iff.mp hglobal
    exact List.ne_nil_of_mem (Site.mem_children_of_childOfKind? hblock)
  · obtain ⟨name, hname, -⟩ := Option.map_eq_some_iff.mp hopening
    have hmem : name ∈ o.site.node.children := List.mem_of_find?_eq_some hname
    rw [Site.children, ne_eq, List.mapIdx_eq_nil_iff]
    exact List.ne_nil_of_mem hmem

end Opening

namespace Site

variable {source : String} {site : Site} {ps : List Piece}

/-- Some pieces hold at most one opening, of a site at or below a given one. -/
def OpensOnce (source : String) (site : Site) (ps : List Piece) : Prop :=
  ∃ o? : Option Opening, ps.filterMap Piece.opening? = o?.toList ∧
    ∀ o ∈ o?, site.Under o.site ∧ o.StandsFor source

theorem opensOnce_of_none (h : ∀ p ∈ ps, p.opening? = none) : site.OpensOnce source ps :=
  ⟨none, List.filterMap_eq_nil_iff.mpr h, by simp⟩

theorem opensOnce_singleton {o : Opening} (hunder : site.Under o.site) (hstands : o.StandsFor source) :
    site.OpensOnce source [.opening o] := by
  refine ⟨some o, rfl, fun other hother => ?_⟩
  obtain rfl := Option.mem_some_iff.mp hother
  exact ⟨hunder, hstands⟩

theorem Contributes.opensOnce {exportsMembers : Bool} (h : site.Contributes source exportsMembers ps) :
    site.OpensOnce source ps := by
  cases h with
  | opens _ construct hunder _ ambient o ho =>
      obtain rfl := site_of_opening? ho
      exact opensOnce_singleton hunder (.inr ⟨_, ambient, ho⟩)
  | opensGlobal _ construct hunder _ o ho =>
      obtain rfl := site_of_globalOpening? ho
      exact opensOnce_singleton hunder (.inl ho)
  | _ => exact opensOnce_of_none (by simp [Piece.opening?])

theorem opensOnce_pieces (source : String) (exportsMembers : Bool) (site : Site) :
    site.OpensOnce source (site.pieces source exportsMembers) :=
  (contributes_pieces source exportsMembers site).opensOnce

/-- The namespaces and modules that the statements of a body open. -/
def openings (source : String) (exportsMembers : Bool) (body : Site) : List Opening :=
  (body.bodyPieces source exportsMembers).filterMap Piece.opening?

theorem openings_eq (source : String) (exportsMembers : Bool) (body : Site) :
    body.openings source exportsMembers = body.namedChildren.flatMap fun statement =>
      (statement.pieces source exportsMembers).filterMap Piece.opening? := by
  rw [openings, bodyPieces, List.filterMap_flatMap]

section Openings

variable {exportsMembers : Bool} {body : Site} {o : Opening}

/-- The statement that an opening belongs to. -/
theorem exists_statement_of_mem_openings (h : o ∈ body.openings source exportsMembers) :
    ∃ statement ∈ body.namedChildren, statement.Under o.site ∧ o.StandsFor source := by
  rw [openings_eq, List.mem_flatMap] at h
  obtain ⟨statement, hstatement, ho⟩ := h
  obtain ⟨o?, hpieces, hopens⟩ := opensOnce_pieces source exportsMembers statement
  rw [hpieces, Option.mem_toList] at ho
  exact ⟨statement, hstatement, hopens o ho⟩

theorem standsFor_of_mem_openings (h : o ∈ body.openings source exportsMembers) :
    o.StandsFor source := by
  obtain ⟨_, -, -, hstands⟩ := exists_statement_of_mem_openings h
  exact hstands

theorem below_of_mem_openings (h : o ∈ body.openings source exportsMembers) :
    body.Below o.site := by
  obtain ⟨statement, hstatement, hunder, -⟩ := exists_statement_of_mem_openings h
  exact .head' (mem_children_of_mem_namedChildren hstatement) hunder

theorem sizeOf_body_of_mem_openings (h : o ∈ body.openings source exportsMembers) {inner : Site}
    (hinner : o.body? = some inner) : sizeOf inner.node < sizeOf body.node := by
  obtain ⟨piece, hpiece, hopening⟩ := List.mem_filterMap.mp h
  cases piece with
  | opening other =>
      obtain rfl := Option.some.inj hopening
      exact sizeOf_body_of_bodyPieces hpiece hinner
  | _ => cases hopening

/-- A property of bodies holds of all if it holds of a body whenever it holds of the bodies of its
openings. -/
theorem bodies_induction (source : String) {motive : Bool → Site → Prop}
    (step : ∀ exportsMembers body,
      (∀ o ∈ body.openings source exportsMembers, ∀ inner ∈ o.body?, motive o.exportsMembers inner) →
      motive exportsMembers body) (exportsMembers : Bool) (body : Site) :
    motive exportsMembers body := by
  refine step exportsMembers body fun o ho inner hinner => ?_
  exact bodies_induction source step o.exportsMembers inner
termination_by body.node
decreasing_by exact sizeOf_body_of_mem_openings ho hinner

/-- Nothing in one opening of a body has the address of anything in another. -/
theorem pairwise_openings (source : String) (exportsMembers : Bool) (body : Site) :
    (body.openings source exportsMembers).Pairwise fun o other =>
      ∀ first second, o.site.Under first → other.site.Under second →
        first.address ≠ second.address := by
  rw [openings_eq, List.pairwise_flatMap]
  constructor
  · intro statement _
    obtain ⟨o?, hpieces, -⟩ := opensOnce_pieces source exportsMembers statement
    rw [hpieces]
    cases o? <;> simp
  · have hchildren := (pairwise_address_children body).filter (·.node.named)
    refine hchildren.imp_of_mem fun {statement sibling} hstatement hsibling hne => ?_
    intro o ho other hother first second hfirst hsecond heq
    obtain ⟨index, hindex⟩ :=
      exists_address_of_mem_children (mem_children_of_mem_namedChildren hstatement)
    obtain ⟨position, hposition⟩ :=
      exists_address_of_mem_children (mem_children_of_mem_namedChildren hsibling)
    obtain ⟨o?, hpieces, hopens⟩ := opensOnce_pieces source exportsMembers statement
    obtain ⟨other?, hpieces', hopens'⟩ := opensOnce_pieces source exportsMembers sibling
    rw [hpieces, Option.mem_toList] at ho
    rw [hpieces', Option.mem_toList] at hother
    have hfirst := Under.suffix ((hopens o ho).1.trans hfirst)
    have hsecond := Under.suffix ((hopens' other hother).1.trans hsecond)
    -- both statements have addresses of one length, and the common address ends in either
    rw [heq] at hfirst
    have hlength : statement.address.length = sibling.address.length := by
      rw [hindex, hposition, List.length_cons, List.length_cons]
    have hsuffix := List.suffix_of_suffix_length_le hfirst hsecond (Nat.le_of_eq hlength)
    exact hne (hsuffix.eq_of_length hlength)

end Openings

end Site

end ExportIndex
