import ExportIndex.Node
import Mathlib.Logic.Relation

/-!
# Sites of a tree

The address of a site tells which site of a tree it is, and ends in the address of every site above.
-/

namespace ExportIndex

namespace Site

/-- A site stands at or below another. -/
abbrev Under (top : Site) : Site → Prop :=
  Relation.ReflTransGen (fun site child => child ∈ site.children) top

/-- A site stands below another. -/
abbrev Below (top : Site) : Site → Prop :=
  Relation.TransGen (fun site child => child ∈ site.children) top

variable {top site child other : Site}

theorem mem_children_iff : child ∈ site.children ↔ ∃ index node,
    site.node.children[index]? = some node ∧
      child = ⟨node, index :: site.address, site.node :: site.ancestors⟩ := by
  rw [children, List.mem_mapIdx]
  constructor
  · rintro ⟨index, hlt, rfl⟩
    exact ⟨index, _, List.getElem?_eq_getElem hlt, rfl⟩
  · rintro ⟨index, node, hnode, rfl⟩
    obtain ⟨hlt, rfl⟩ := List.getElem?_eq_some_iff.mp hnode
    exact ⟨index, hlt, rfl⟩

theorem exists_address_of_mem_children (h : child ∈ site.children) :
    ∃ index, child.address = index :: site.address := by
  obtain ⟨index, node, -, rfl⟩ := mem_children_iff.mp h
  exact ⟨index, rfl⟩

/-- The address of a child tells which child it is. -/
theorem eq_of_mem_children (h : child ∈ site.children) (hother : other ∈ site.children)
    (heq : child.address = other.address) : child = other := by
  obtain ⟨index, node, hnode, rfl⟩ := mem_children_iff.mp h
  obtain ⟨position, sibling, hsibling, rfl⟩ := mem_children_iff.mp hother
  obtain rfl := (List.cons.inj heq).1
  obtain rfl := Option.some.inj (hnode.symm.trans hsibling)
  rfl

theorem pairwise_address_children (site : Site) :
    site.children.Pairwise fun child other => child.address ≠ other.address := by
  rw [List.pairwise_iff_getElem]
  intro i j hi hj hlt heq
  simp only [children, List.getElem_mapIdx, List.cons.injEq, and_true] at heq
  omega

theorem Under.suffix (h : top.Under site) : top.address <:+ site.address := by
  induction h with
  | refl => exact List.suffix_rfl
  | tail _ hchild ih =>
      obtain ⟨index, hindex⟩ := exists_address_of_mem_children hchild
      exact hindex ▸ ih.trans (List.suffix_cons _ _)

theorem Below.suffix (h : top.Below site) :
    top.address <:+ site.address ∧ top.address ≠ site.address := by
  obtain ⟨parent, hunder, hchild⟩ := Relation.TransGen.tail'_iff.mp h
  obtain ⟨index, hindex⟩ := exists_address_of_mem_children hchild
  have hsuffix := Under.suffix hunder
  rw [hindex]
  refine ⟨hsuffix.trans (List.suffix_cons _ _), fun heq => ?_⟩
  have hlength := hsuffix.length_le
  rw [heq, List.length_cons] at hlength
  omega

theorem Below.length_lt (h : top.Below site) : top.address.length < site.address.length := by
  obtain ⟨hsuffix, hne⟩ := Below.suffix h
  exact Nat.lt_of_le_of_ne hsuffix.length_le fun heq => hne (hsuffix.eq_of_length heq)

/-- The nodes above a site go on from any site above it. -/
theorem Below.exists_ancestors (h : top.Below site) :
    ∃ between, site.ancestors = between ++ top.node :: top.ancestors := by
  induction h with
  | single hchild =>
      obtain ⟨index, node, -, rfl⟩ := mem_children_iff.mp hchild
      exact ⟨[], rfl⟩
  | tail _ hchild ih =>
      obtain ⟨between, hancestors⟩ := ih
      obtain ⟨index, node, -, rfl⟩ := mem_children_iff.mp hchild
      exact ⟨_ :: between, congrArg (_ :: ·) hancestors⟩

/-- The address of a site tells which site of the tree it is. -/
theorem Under.eq_of_address (h : top.Under site) (hother : top.Under other)
    (heq : site.address = other.address) : site = other := by
  induction h generalizing other with
  | refl =>
      rcases Relation.reflTransGen_iff_eq_or_transGen.mp hother with rfl | hbelow
      · rfl
      · exact absurd heq (Below.suffix hbelow).2
  | @tail parent site hparent hchild ih =>
      obtain ⟨index, hindex⟩ := exists_address_of_mem_children hchild
      cases hother with
      | refl => exact absurd heq.symm (Below.suffix (.tail' hparent hchild)).2
      | @tail stepparent _ hstep hsibling =>
          obtain ⟨position, hposition⟩ := exists_address_of_mem_children hsibling
          rw [hindex, hposition, List.cons.injEq] at heq
          obtain rfl := ih hstep heq.2
          exact eq_of_mem_children hchild hsibling (by rw [hindex, hposition, heq.1])

/-- What stands above a child stands at or above its parent. -/
theorem under_of_below_child (htop : top.Under other) (hsite : top.Under site)
    (hchild : child ∈ site.children) (h : other.Below child) : other.Under site := by
  obtain ⟨parent, hunder, hparent⟩ := Relation.TransGen.tail'_iff.mp h
  obtain ⟨index, hindex⟩ := exists_address_of_mem_children hchild
  obtain ⟨position, hposition⟩ := exists_address_of_mem_children hparent
  have heq : parent.address = site.address := (List.cons.inj (hposition.symm.trans hindex)).2
  exact Under.eq_of_address (htop.trans hunder) hsite heq ▸ hunder

theorem preorder_eq (site : Site) : site.preorder = site :: site.children.flatMap preorder := by
  rw [preorder]
  simp

theorem mem_preorder_iff {site other : Site} : other ∈ site.preorder ↔ site.Under other := by
  rw [preorder_eq, List.mem_cons, Under, Relation.reflTransGen_iff_eq_or_transGen]
  refine or_congr_right ?_
  rw [Relation.TransGen.head'_iff, List.mem_flatMap]
  constructor
  · rintro ⟨child, hchild, hin⟩
    exact ⟨child, hchild, mem_preorder_iff.mp hin⟩
  · rintro ⟨child, hchild, hunder⟩
    exact ⟨child, hchild, mem_preorder_iff.mpr hunder⟩
termination_by site.node
decreasing_by all_goals exact Node.sizeOf_child (node_mem_of_mem_children hchild)

theorem map_node_children (site : Site) : site.children.map node = site.node.children :=
  List.ext_getElem (by simp [children]) (by simp [children])

theorem map_node_namedChildren (site : Site) :
    site.namedChildren.map node = site.node.namedChildren := by
  rw [Node.namedChildren, ← map_node_children, List.filter_map]
  rfl

theorem field?_node (site : Site) (field : String) :
    site.node.field? field = (site.field? field).map node := by
  rw [Node.field?, ← map_node_children, List.find?_map]
  rfl

theorem childOfKind?_node (site : Site) (kind : String) :
    site.node.childOfKind? kind = (site.childOfKind? kind).map node := by
  rw [Node.childOfKind?, ← map_node_namedChildren, List.find?_map]
  rfl

theorem mem_children_of_mem_namedChildren (h : child ∈ site.namedChildren) :
    child ∈ site.children :=
  (List.mem_filter.mp h).1

theorem mem_children_of_field? {field : String} (h : site.field? field = some child) :
    child ∈ site.children :=
  List.mem_of_find?_eq_some h

theorem mem_children_of_childOfKind? {kind : String} (h : site.childOfKind? kind = some child) :
    child ∈ site.children :=
  mem_children_of_mem_namedChildren (List.mem_of_find?_eq_some h)

end Site

end ExportIndex
