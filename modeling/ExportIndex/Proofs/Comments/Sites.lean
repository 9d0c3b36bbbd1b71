import ExportIndex.Proofs.Comments.Declarations
import ExportIndex.Proofs.Tree.Site
import ExportIndex.Usage
import Mathlib.Data.List.Induction
import Mathlib.Data.List.Nodup

/-!
# Sites without comments

Every site of a tree that is no comment stands at a place of its own in the tree without comments,
and the same statements and uses are read there.
-/

namespace ExportIndex

/-- The position that a child has among those children that are no comments. -/
def Node.keptBefore (node : Node) (index : Nat) : Nat :=
  ((node.children.take index).filter (·.kind ≠ "comment")).length

/-- Entries that are left out count for nothing in the positions of the others. -/
theorem mapIdx_map_filter {α β γ δ : Type} {l : List α} {kept : α → Bool} {strip : α → β}
    {place : Nat → α → γ} {q : γ → Bool} {f : γ → δ} {g : Nat → β → δ} {count : Nat → Nat}
    (hq : ∀ index a, q (place index a) = kept a)
    (hf : ∀ index a, f (place index a) = g (count index) (strip a))
    (hcount : ∀ index < l.length, count index = ((l.take index).filter kept).length) :
    ((l.filter kept).map strip).mapIdx g = ((l.mapIdx place).filter q).map f := by
  induction l using List.reverseRecOn with
  | nil => rfl
  | append_singleton rest a ih =>
      have hrest := ih fun index hindex => by
        rw [hcount index (by simp; omega), List.take_append_of_le_length (Nat.le_of_lt hindex)]
      have hlast : count rest.length = (rest.filter kept).length := by
        rw [hcount rest.length (by simp), List.take_left]
      rw [List.filter_append, List.map_append, List.mapIdx_append, List.mapIdx_append,
        List.filter_append, List.map_append, hrest]
      congr 1
      by_cases ha : kept a
      · simp [hq, hf, ha, hlast]
      · simp [hq, ha]

namespace Site

/-- The site in the tree without comments. -/
def withoutComments (site : Site) : Site where
  node := site.node.withoutComments
  address := List.zipWith Node.keptBefore site.ancestors site.address
  ancestors := site.ancestors.map Node.withoutComments

variable {top site child other : Site} {source : String}

@[simp] theorem node_withoutComments (site : Site) :
    site.withoutComments.node = site.node.withoutComments := rfl

theorem children_withoutComments (site : Site) : site.withoutComments.children =
    (site.children.filter (·.node.kind ≠ "comment")).map withoutComments := by
  rw [children, children, node_withoutComments, Node.children_withoutComments]
  exact mapIdx_map_filter (fun _ _ => rfl) (fun _ _ => rfl) fun _ _ => rfl

theorem namedChildren_withoutComments (site : Site) : site.withoutComments.namedChildren =
    (site.namedChildren.filter (·.node.kind ≠ "comment")).map withoutComments := by
  rw [namedChildren, namedChildren, children_withoutComments, List.filter_map, List.filter_filter,
    List.filter_filter]
  simp [Bool.and_comm]

theorem tidy_of_mem_children (h : site.node.Tidy) (hchild : child ∈ site.children) :
    child.node.Tidy :=
  h.of_mem_children (node_mem_of_mem_children hchild)

theorem field?_withoutComments (h : site.node.Tidy) (field : String) :
    site.withoutComments.field? field = (site.field? field).map withoutComments := by
  rw [field?, field?, children_withoutComments]
  refine find?_map_filter (fun child => Node.inField_withoutComments child.node field)
    fun child hchild hfield => ?_
  exact decide_eq_true (h.kind_ne_of_inField (node_mem_of_mem_children hchild) hfield)

theorem childOfKind?_withoutComments (site : Site) {kind : String} (hkind : kind ≠ "comment") :
    site.withoutComments.childOfKind? kind = (site.childOfKind? kind).map withoutComments := by
  rw [childOfKind?, childOfKind?, namedChildren_withoutComments]
  refine find?_map_filter (fun child => by rw [node_withoutComments, Node.kind_withoutComments])
    fun child _ hchild => ?_
  exact decide_eq_true fun hcomment => hkind ((of_decide_eq_true hchild).symm.trans hcomment)

theorem kind_head?_ne (h : site.node.Tidy) (hkind : site.node.kind ∈ leadingKinds)
    (hchild : site.namedChildren.head? = some child) : child.node.kind ≠ "comment" := by
  refine h.kind_head?_ne hkind ?_
  rw [← map_node_namedChildren, List.head?_map, hchild, Option.map_some]

theorem head?_namedChildren_withoutComments (h : site.node.Tidy)
    (hkind : site.node.kind ∈ leadingKinds) :
    site.withoutComments.namedChildren.head? = site.namedChildren.head?.map withoutComments := by
  rw [namedChildren_withoutComments]
  exact head?_map_filter fun first hfirst => decide_eq_true (kind_head?_ne h hkind hfirst)

/-! ## Places -/

/-- A site stands at or below another, with no comment on the way. -/
abbrev Reaches (top : Site) : Site → Prop :=
  Relation.ReflTransGen (fun site child => child ∈ site.children ∧ child.node.kind ≠ "comment") top

theorem Reaches.under (h : top.Reaches site) : top.Under site := by
  induction h with
  | refl => exact .refl
  | tail _ hstep ih => exact ih.tail hstep.1

theorem mem_children_withoutComments (hchild : child ∈ site.children)
    (hkind : child.node.kind ≠ "comment") :
    child.withoutComments ∈ site.withoutComments.children := by
  rw [children_withoutComments]
  exact List.mem_map_of_mem (List.mem_filter.mpr ⟨hchild, decide_eq_true hkind⟩)

theorem Reaches.under_withoutComments (h : top.Reaches site) :
    top.withoutComments.Under site.withoutComments := by
  induction h with
  | refl => exact .refl
  | tail _ hstep ih => exact ih.tail (mem_children_withoutComments hstep.1 hstep.2)

theorem Under.tidy (htop : top.node.Tidy) (h : top.Under site) : site.node.Tidy := by
  induction h with
  | refl => exact htop
  | tail _ hchild ih => exact tidy_of_mem_children ih hchild

/-- Nothing stands below a comment. -/
theorem Under.reaches_or_childless (htop : top.node.Tidy) (h : top.Under site) :
    top.Reaches site ∨ site.children = [] := by
  induction h with
  | refl => exact .inl .refl
  | @tail parent child hparent hchild ih =>
      rcases ih with hreaches | hnone
      · by_cases hkind : child.node.kind = "comment"
        · have hleaf := (Under.tidy htop hparent).leaf (node_mem_of_mem_children hchild) hkind
          exact .inr (by rw [children, hleaf.2, List.mapIdx_nil])
        · exact .inl (hreaches.tail ⟨hchild, hkind⟩)
      · rw [hnone] at hchild
        cases hchild

theorem Under.reaches (htop : top.node.Tidy) (h : top.Under site)
    (hkind : site.node.kind ≠ "comment") : top.Reaches site := by
  cases h with
  | refl => exact .refl
  | tail hparent hchild =>
      rcases Under.reaches_or_childless htop hparent with hreaches | hnone
      · exact hreaches.tail ⟨hchild, hkind⟩
      · rw [hnone] at hchild
        cases hchild

theorem exists_address_withoutComments (hchild : child ∈ site.children) : ∃ index,
    child.withoutComments.address = index :: site.withoutComments.address := by
  obtain ⟨index, node, -, rfl⟩ := mem_children_iff.mp hchild
  exact ⟨_, rfl⟩

theorem eq_of_address_withoutComments (hchild : child ∈ site.children)
    (hkind : child.node.kind ≠ "comment") (hother : other ∈ site.children)
    (hotherKind : other.node.kind ≠ "comment")
    (heq : child.withoutComments.address = other.withoutComments.address) : child = other := by
  have hpairwise := pairwise_address_children site.withoutComments
  rw [children_withoutComments, List.pairwise_map, ← List.pairwise_map] at hpairwise
  exact List.inj_on_of_nodup_map hpairwise (List.mem_filter.mpr ⟨hchild, decide_eq_true hkind⟩)
    (List.mem_filter.mpr ⟨hother, decide_eq_true hotherKind⟩) heq

/-- Sites that are no comments keep different places. -/
theorem Reaches.eq_of_address (h : top.Reaches site) (hother : top.Reaches other)
    (heq : site.withoutComments.address = other.withoutComments.address) : site = other := by
  induction h generalizing other with
  | refl =>
      cases hother with
      | refl => rfl
      | tail hparent hstep =>
          have hbelow := Relation.TransGen.tail' (Reaches.under_withoutComments hparent)
            (mem_children_withoutComments hstep.1 hstep.2)
          exact absurd heq (Below.suffix hbelow).2
  | @tail parent site hparent hstep ih =>
      cases hother with
      | refl =>
          have hbelow := Relation.TransGen.tail' (Reaches.under_withoutComments hparent)
            (mem_children_withoutComments hstep.1 hstep.2)
          exact absurd heq.symm (Below.suffix hbelow).2
      | @tail stepparent _ hstepparent hsibling =>
          obtain ⟨index, hindex⟩ := exists_address_withoutComments hstep.1
          obtain ⟨position, hposition⟩ := exists_address_withoutComments hsibling.1
          obtain rfl := ih hstepparent (by rw [hindex, hposition] at heq; exact (List.cons.inj heq).2)
          exact eq_of_address_withoutComments hstep.1 hstep.2 hsibling.1 hsibling.2 heq

/-! ## Uses -/

theorem parent?_withoutComments (site : Site) :
    site.withoutComments.parent? = site.parent?.map Node.withoutComments := by
  rw [parent?, parent?, ← List.head?_map]
  rfl

theorem isCandidate_withoutComments (site : Site) :
    site.withoutComments.isCandidate = site.isCandidate := by
  rw [isCandidate, isCandidate, parent?_withoutComments, Option.any_map]
  simp

theorem declaresName_withoutComments (node : Node) (above : List Node) :
    declaresName node.withoutComments (above.map Node.withoutComments) = declaresName node above := by
  induction above generalizing node with
  | nil => rfl
  | cons parent rest ih =>
      rw [List.map_cons, declaresName, declaresName, Node.kind_withoutComments, ih,
        Node.inField_withoutComments]

theorem isUse_withoutComments (site : Site) : site.withoutComments.isUse = site.isUse := by
  have hbelow : site.withoutComments.isBelow linkageKinds = site.isBelow linkageKinds := by
    rw [isBelow, isBelow, withoutComments, List.any_map]
    simp [Function.comp_def]
  have hname : site.withoutComments.isDeclaredName = site.isDeclaredName :=
    declaresName_withoutComments site.node site.ancestors
  have hmember : site.withoutComments.isQualifiedMember = site.isQualifiedMember := by
    rw [isQualifiedMember, isQualifiedMember, parent?_withoutComments, Option.any_map]
    simp
  rw [isUse, isUse, hbelow, hname, hmember, parent?_withoutComments, Option.any_map]
  simp

/-- The sites of a kind that no comment has are the same in the tree without comments. -/
theorem filter_preorder_withoutComments {p : Site → Bool}
    (hp : ∀ site, p site.withoutComments = p site)
    (hcomment : ∀ site, site.node.kind = "comment" → p site = false) {top : Site}
    (h : top.node.Tidy) : top.withoutComments.preorder.filter p =
      (top.preorder.filter p).map withoutComments := by
  have hbelow : (top.withoutComments.children.flatMap preorder).filter p =
      ((top.children.flatMap preorder).filter p).map withoutComments := by
    rw [List.filter_flatMap, List.filter_flatMap, List.map_flatMap, children_withoutComments]
    refine flatMap_map_filter (fun child hchild _ => ?_) fun child hchild hleft => ?_
    · exact filter_preorder_withoutComments hp hcomment (tidy_of_mem_children h hchild)
    · have hkind : child.node.kind = "comment" := by simpa using hleft
      have hleaf := h.leaf (node_mem_of_mem_children hchild) hkind
      rw [preorder_eq, children, hleaf.2]
      simp [hcomment child hkind]
  rw [preorder_eq, preorder_eq, List.filter_cons, List.filter_cons, hp, hbelow]
  split <;> rfl
termination_by top.node
decreasing_by exact Node.sizeOf_child (node_mem_of_mem_children hchild)

theorem uses_withoutComments (h : top.node.Tidy) :
    top.withoutComments.uses source = (top.uses source).map withoutComments := by
  refine filter_preorder_withoutComments (fun site => ?_) (fun site hkind => ?_) h
  · rw [isCandidate_withoutComments, isUse_withoutComments, node_withoutComments,
      Node.text_withoutComments]
  · simp [isCandidate, hkind]

end Site

end ExportIndex
