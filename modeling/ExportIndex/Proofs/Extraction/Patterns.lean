import ExportIndex.Proofs.Comments.Declarations
import ExportIndex.Proofs.Tree.Site

/-!
# Patterns

A declarator binds the names in its pattern. Names in property keys and default values are not among them.
-/

namespace ExportIndex

/-- The kinds of pattern that are a name. -/
def nameKinds : List String := ["identifier", "shorthand_property_identifier_pattern"]

/-- The kinds of pattern that come with a default value. -/
def defaultKinds : List String := ["object_assignment_pattern", "assignment_pattern"]

/-- The kinds of pattern that hold any number of patterns. -/
def groupKinds : List String := ["object_pattern", "array_pattern"]

namespace Node

/-- Whether a child stands aside in a pattern: as a keyword or mark, a property key or a default value. -/
def holdsAside (pattern child : Node) : Bool :=
  !child.named || (pattern.kind = "pair_pattern" && child.inField "key") ||
    (pattern.kind ∈ defaultKinds && child.inField "right")

/-- Whether a node, with the nodes above it, stands in what some pattern holds aside. -/
def standsAside (node : Node) : List Node → Bool
  | [] => false
  | parent :: above => parent.holdsAside node || parent.standsAside above

end Node

/-- Whether a site of a pattern is a name that the pattern binds. -/
def Site.isBoundName (site : Site) : Bool :=
  site.node.kind ∈ nameKinds && site.node.children.isEmpty && !site.node.standsAside site.ancestors

namespace Node

/-- The names in a pattern, outside property keys and default values. -/
def boundLeaves (pattern : Node) : List Node :=
  ((Site.ofRoot pattern).preorder.filter Site.isBoundName).map Site.node

/-- The children of a pattern that do not stand aside. -/
def bindingParts (pattern : Node) : List Node :=
  pattern.children.filter fun child => !pattern.holdsAside child

/-- Patterns are names, and what is made of patterns by pairs, defaults, rests, objects and arrays. -/
inductive IsPattern : Node → Prop where
  | name {node : Node} (hkind : node.kind ∈ nameKinds) (hleaf : node.children = []) : IsPattern node
  | pair {node value : Node} (hkind : node.kind = "pair_pattern")
      (hvalue : node.field? "value" = some value) (hparts : node.bindingParts = [value])
      (h : IsPattern value) : IsPattern node
  | withDefault {node left : Node} (hkind : node.kind ∈ defaultKinds)
      (hleft : node.field? "left" = some left) (hparts : node.bindingParts = [left])
      (h : IsPattern left) : IsPattern node
  | rest {node inner : Node} (hkind : node.kind = "rest_pattern") (hparts : node.bindingParts = [inner])
      (h : IsPattern inner) : IsPattern node
  | group {node : Node} (hkind : node.kind ∈ groupKinds)
      (h : ∀ child ∈ node.bindingParts, IsPattern child) : IsPattern node

variable {source : String} {node pattern : Node}

theorem patternStep_of_name (h : node.kind ∈ nameKinds) : node.patternStep = .name := by
  rcases List.mem_pair.mp h with hkind | hkind
  · simp [patternStep, hkind]
  · simp [patternStep, hkind]

theorem patternStep_of_default (h : node.kind ∈ defaultKinds) :
    node.patternStep = .into (node.field? "left").toList := by
  rcases List.mem_pair.mp h with hkind | hkind
  · simp [patternStep, hkind]
  · simp [patternStep, hkind]

theorem patternStep_of_group (h : node.kind ∈ groupKinds) :
    node.patternStep = .into node.namedChildren := by
  rcases List.mem_pair.mp h with hkind | hkind
  · simp [patternStep, hkind]
  · simp [patternStep, hkind]

theorem bindingParts_eq_namedChildren (node : Node) (hpair : node.kind ≠ "pair_pattern")
    (hdefault : node.kind ∉ defaultKinds) : node.bindingParts = node.namedChildren := by
  simp [bindingParts, namedChildren, holdsAside, hpair, hdefault]

/-- A pattern is a name, or it binds what its parts bind that do not stand aside. -/
theorem IsPattern.cases_patternStep (h : node.IsPattern) :
    (node.kind ∈ nameKinds ∧ node.children = []) ∨
      (node.patternStep = .into node.bindingParts ∧ ∀ part ∈ node.bindingParts, part.IsPattern) := by
  cases h with
  | name hkind hleaf => exact .inl ⟨hkind, hleaf⟩
  | pair hkind hvalue hparts h =>
      rw [hparts]
      exact .inr ⟨by simp [patternStep, hkind, hvalue], by simpa using h⟩
  | withDefault hkind hleft hparts h =>
      rw [hparts]
      exact .inr ⟨by rw [patternStep_of_default hkind, hleft]; rfl, by simpa using h⟩
  | rest hkind hparts h =>
      have hnamed := node.bindingParts_eq_namedChildren (by simp [hkind]) (by simp [hkind, defaultKinds])
      rw [hparts] at hnamed ⊢
      exact .inr ⟨by simp [patternStep, hkind, ← hnamed], by simpa using h⟩
  | group hkind h =>
      have hnamed : node.bindingParts = node.namedChildren := by
        rcases List.mem_pair.mp hkind with hkind | hkind
        · simp [bindingParts_eq_namedChildren, hkind, defaultKinds]
        · simp [bindingParts_eq_namedChildren, hkind, defaultKinds]
      exact .inr ⟨by rw [patternStep_of_group hkind, hnamed], h⟩

end Node

namespace Site

variable {source : String} {site child : Site}

theorem standsAside_of_under (hunder : site.Under child)
    (h : site.node.standsAside site.ancestors = true) :
    child.node.standsAside child.ancestors = true := by
  induction hunder with
  | refl => exact h
  | tail _ hchild ih =>
      obtain ⟨index, node, -, rfl⟩ := mem_children_iff.mp hchild
      rw [Node.standsAside, ih, Bool.or_true]

/-- What stands aside holds no name that is bound. -/
theorem filter_isBoundName_of_standsAside (h : site.node.standsAside site.ancestors = true) :
    site.preorder.filter isBoundName = [] := by
  apply List.filter_eq_nil_iff.mpr
  intro other hother
  simp [isBoundName, standsAside_of_under (mem_preorder_iff.mp hother) h]

theorem standsAside_of_mem_children (hchild : child ∈ site.children)
    (h : site.node.standsAside site.ancestors = false) :
    child.node.standsAside child.ancestors = site.node.holdsAside child.node := by
  obtain ⟨index, node, -, rfl⟩ := mem_children_iff.mp hchild
  rw [Node.standsAside, h, Bool.or_false]

/-- A pattern binds its names, wherever it stands, unless it stands aside. -/
theorem boundNames_eq_filter {site : Site} (hpattern : site.node.IsPattern)
    (haside : site.node.standsAside site.ancestors = false) :
    site.node.boundNames source =
      (site.preorder.filter isBoundName).map fun leaf => leaf.node.text source := by
  rw [preorder_eq]
  rcases hpattern.cases_patternStep with ⟨hkind, hleaf⟩ | ⟨hstep, hparts⟩
  · have hchildren : site.children = [] := by
      rw [← List.map_eq_nil_iff, map_node_children, hleaf]
    have hbound : site.isBoundName = true := by simp [isBoundName, hkind, hleaf, haside]
    rw [hchildren, Node.boundNames_of_name (Node.patternStep_of_name hkind), List.flatMap_nil,
      List.filter_cons_of_pos hbound]
    rfl
  · have hbound : site.isBoundName = false := by
      have hkind : site.node.kind ∉ nameKinds := by
        intro hkind
        rw [Node.patternStep_of_name hkind] at hstep
        cases hstep
      simp [isBoundName, hkind]
    have hsites : (site.children.filter fun child => !site.node.holdsAside child.node).map node =
        site.node.bindingParts := by
      rw [Node.bindingParts, ← map_node_children, List.filter_map]
      rfl
    rw [Node.boundNames_of_into hstep, List.filter_cons_of_neg (by simp [hbound]), List.filter_flatMap,
      List.map_flatMap, ← hsites]
    -- The parts are patterns again, and there is nothing to find in what stands aside.
    refine flatMap_map_filter (fun child hchild hkept => ?_) fun child hchild hleft => ?_
    · have hpart : child.node.IsPattern := by
        apply hparts
        rw [← hsites]
        exact List.mem_map_of_mem (List.mem_filter.mpr ⟨hchild, hkept⟩)
      refine boundNames_eq_filter hpart ?_
      rw [standsAside_of_mem_children hchild haside]
      simpa using hkept
    · rw [filter_isBoundName_of_standsAside, List.map_nil]
      rw [standsAside_of_mem_children hchild haside]
      simpa using hleft
termination_by site.node
decreasing_by exact Node.sizeOf_child (node_mem_of_mem_children hchild)

end Site

/-- A pattern binds exactly the names in it, outside property keys and default values. -/
theorem Node.IsPattern.boundNames_eq {source : String} {pattern : Node} (h : pattern.IsPattern) :
    pattern.boundNames source = pattern.boundLeaves.map (text source) := by
  have htop : (Site.ofRoot pattern).node.IsPattern := h
  rw [boundLeaves, List.map_map]
  exact Site.boundNames_eq_filter htop rfl

end ExportIndex
