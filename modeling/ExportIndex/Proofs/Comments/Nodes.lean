import ExportIndex.Node.Declaration
import ExportIndex.Node.Linkage
import Mathlib.Data.List.Basic
import Mathlib.Data.List.Flatten

/-!
# Trees without their comments

A node says the same without the comments of its tree, as long as no comment comes first in a
construct that is read by its first part.
-/

namespace ExportIndex

/-! ## Lists with some entries left out -/

section Lists

variable {α β γ : Type} {l : List α} {kept p : α → Bool} {f : α → β} {q : β → Bool}

theorem filter_map_filter (hq : ∀ a, q (f a) = p a) (hkept : ∀ a ∈ l, p a → kept a) :
    ((l.filter kept).map f).filter q = (l.filter p).map f := by
  rw [List.filter_map, List.filter_filter]
  congr 1
  refine List.filter_congr fun a ha => ?_
  rw [Function.comp_apply, hq]
  cases hp : p a with
  | false => rfl
  | true => rw [hkept a ha hp, Bool.and_self]

theorem find?_map_filter (hq : ∀ a, q (f a) = p a) (hkept : ∀ a ∈ l, p a → kept a) :
    ((l.filter kept).map f).find? q = (l.find? p).map f := by
  rw [← List.head?_filter, filter_map_filter hq hkept, List.head?_map, List.head?_filter]

theorem head?_map_filter (hkept : ∀ a ∈ l.head?, kept a) :
    ((l.filter kept).map f).head? = l.head?.map f := by
  cases l with
  | nil => rfl
  | cons first rest =>
      rw [List.filter_cons_of_pos (hkept first rfl), List.map_cons]
      rfl

theorem flatMap_map_filter {g : β → List γ} {h : α → List γ} (hkept : ∀ a ∈ l, kept a → g (f a) = h a)
    (hleft : ∀ a ∈ l, ¬ kept a → h a = []) : ((l.filter kept).map f).flatMap g = l.flatMap h := by
  induction l with
  | nil => rfl
  | cons a rest ih =>
      have hrest := ih (fun b hb => hkept b (List.mem_cons_of_mem a hb))
        fun b hb => hleft b (List.mem_cons_of_mem a hb)
      rw [List.filter_cons, List.flatMap_cons]
      split
      next ha => rw [List.map_cons, List.flatMap_cons, hkept a List.mem_cons_self ha, hrest]
      next ha => rw [hleft a List.mem_cons_self ha, List.nil_append, hrest]

theorem foldl_map_filter {g : γ → β → γ} {h : γ → α → γ}
    (hkept : ∀ a ∈ l, kept a → ∀ c, g c (f a) = h c a) (hleft : ∀ a ∈ l, ¬ kept a → ∀ c, h c a = c)
    (c : γ) : ((l.filter kept).map f).foldl g c = l.foldl h c := by
  induction l generalizing c with
  | nil => rfl
  | cons a rest ih =>
      have hrest := ih (fun b hb => hkept b (List.mem_cons_of_mem a hb))
        fun b hb => hleft b (List.mem_cons_of_mem a hb)
      rw [List.filter_cons, List.foldl_cons]
      split
      next ha => rw [List.map_cons, List.foldl_cons, hkept a List.mem_cons_self ha, hrest]
      next ha => rw [hleft a List.mem_cons_self ha, hrest]

theorem takeWhile_filter (hkept : ∀ a ∈ l, ¬ kept a → p a) :
    (l.filter kept).takeWhile p = (l.takeWhile p).filter kept := by
  induction l with
  | nil => rfl
  | cons a rest ih =>
      have hrest := ih fun b hb => hkept b (List.mem_cons_of_mem a hb)
      by_cases ha : kept a
      · rw [List.filter_cons_of_pos ha, List.takeWhile_cons, List.takeWhile_cons, hrest]
        split
        · rw [List.filter_cons_of_pos ha]
        · rfl
      · rw [List.filter_cons_of_neg ha, hrest,
          List.takeWhile_cons_of_pos (hkept a List.mem_cons_self ha), List.filter_cons_of_neg ha]

end Lists

/-- The kinds of construct that are read by their first named child. -/
def leadingKinds : List String :=
  annotatingKinds ++ ["rest_pattern", "namespace_export", "ambient_declaration"]

namespace Node

/-- The comments of a tree are in no field and hold nothing, and they come first among the named
children of a node only if its kind is allowed. -/
inductive CommentedWithin (allowed : String → Prop) : Node → Prop where
  | intro {node : Node}
      (leaf : ∀ child ∈ node.children, child.kind = "comment" →
        child.fields = [] ∧ child.children = [])
      (first : ∀ child ∈ node.namedChildren.head?, child.kind = "comment" → allowed node.kind)
      (below : ∀ child ∈ node.children, CommentedWithin allowed child) :
      CommentedWithin allowed node

theorem CommentedWithin.mono {allowed other : String → Prop} {node : Node}
    (h : node.CommentedWithin allowed) (hle : ∀ kind, allowed kind → other kind) :
    node.CommentedWithin other := by
  induction h with
  | intro leaf first _ ih =>
      exact .intro leaf (fun child hchild hkind => hle _ (first child hchild hkind)) ih

/-- No comment comes first where the first part of a construct counts. -/
def Tidy (node : Node) : Prop := node.CommentedWithin (· ∉ leadingKinds)

variable {source : String} {node child : Node}

namespace Tidy

theorem leaf (h : node.Tidy) (hchild : child ∈ node.children) (hkind : child.kind = "comment") :
    child.fields = [] ∧ child.children = [] := by
  obtain ⟨hleaf, -, -⟩ := h
  exact hleaf child hchild hkind

theorem of_mem_children (h : node.Tidy) (hchild : child ∈ node.children) : child.Tidy := by
  obtain ⟨-, -, hbelow⟩ := h
  exact hbelow child hchild

theorem kind_head?_ne (h : node.Tidy) (hkind : node.kind ∈ leadingKinds)
    (hchild : node.namedChildren.head? = some child) : child.kind ≠ "comment" := by
  obtain ⟨-, hfirst, -⟩ := h
  exact fun hcomment => hfirst child hchild hcomment hkind

theorem of_mem_namedChildren (h : node.Tidy) (hchild : child ∈ node.namedChildren) : child.Tidy :=
  h.of_mem_children (List.mem_filter.mp hchild).1

theorem of_field? (h : node.Tidy) {field : String} (hchild : node.field? field = some child) :
    child.Tidy :=
  h.of_mem_children (List.mem_of_find?_eq_some hchild)

theorem of_mem_childrenOfKind (h : node.Tidy) {kinds : List String}
    (hchild : child ∈ node.childrenOfKind kinds) : child.Tidy :=
  h.of_mem_namedChildren (List.mem_filter.mp hchild).1

theorem of_childOfKind? (h : node.Tidy) {kind : String}
    (hchild : node.childOfKind? kind = some child) : child.Tidy :=
  h.of_mem_namedChildren (List.mem_of_find?_eq_some hchild)

theorem kind_ne_of_inField (h : node.Tidy) (hchild : child ∈ node.children) {field : String}
    (hfield : child.inField field) : child.kind ≠ "comment" := by
  intro hkind
  simp [inField, (h.leaf hchild hkind).1] at hfield

theorem kind_ne_of_field? (h : node.Tidy) {field : String} (hchild : node.field? field = some child) :
    child.kind ≠ "comment" := by
  have hfield := List.find?_some hchild
  exact h.kind_ne_of_inField (List.mem_of_find?_eq_some hchild) hfield

end Tidy

/-! ## Children -/

theorem children_withoutComments (node : Node) : node.withoutComments.children =
    (node.children.filter (·.kind ≠ "comment")).map withoutComments := by
  rw [withoutComments]

@[simp] theorem kind_withoutComments (node : Node) : node.withoutComments.kind = node.kind := by
  rw [withoutComments]

@[simp] theorem named_withoutComments (node : Node) : node.withoutComments.named = node.named := by
  rw [withoutComments]

@[simp] theorem span_withoutComments (node : Node) : node.withoutComments.span = node.span := by
  rw [withoutComments]

@[simp] theorem inField_withoutComments (node : Node) (field : String) :
    node.withoutComments.inField field = node.inField field := by
  rw [withoutComments, inField, inField]

@[simp] theorem text_withoutComments (source : String) (node : Node) :
    node.withoutComments.text source = node.text source := by
  rw [text, text, span_withoutComments]

theorem namedChildren_withoutComments (node : Node) : node.withoutComments.namedChildren =
    (node.namedChildren.filter (·.kind ≠ "comment")).map withoutComments := by
  rw [namedChildren, namedChildren, children_withoutComments, List.filter_map, List.filter_filter,
    List.filter_filter]
  simp [Bool.and_comm]

theorem field?_withoutComments (h : node.Tidy) (field : String) :
    node.withoutComments.field? field = (node.field? field).map withoutComments := by
  rw [field?, field?, children_withoutComments]
  refine find?_map_filter (fun child => inField_withoutComments child field)
    fun child hchild hfield => ?_
  exact decide_eq_true (h.kind_ne_of_inField hchild hfield)

theorem childrenOfKind_withoutComments (node : Node) {kinds : List String}
    (hkinds : "comment" ∉ kinds) : node.withoutComments.childrenOfKind kinds =
      (node.childrenOfKind kinds).map withoutComments := by
  rw [childrenOfKind, childrenOfKind, namedChildren_withoutComments]
  refine filter_map_filter (fun child => by rw [kind_withoutComments]) fun child _ hkind => ?_
  exact decide_eq_true fun hcomment => hkinds (hcomment ▸ of_decide_eq_true hkind)

theorem childOfKind?_withoutComments (node : Node) {kind : String} (hkind : kind ≠ "comment") :
    node.withoutComments.childOfKind? kind = (node.childOfKind? kind).map withoutComments := by
  rw [childOfKind?, childOfKind?, namedChildren_withoutComments]
  refine find?_map_filter (fun child => by rw [kind_withoutComments]) fun child _ hchild => ?_
  exact decide_eq_true fun hcomment => hkind ((of_decide_eq_true hchild).symm.trans hcomment)

theorem hasToken_withoutComments (node : Node) {token : String} (htoken : token ≠ "comment") :
    node.withoutComments.hasToken token = node.hasToken token := by
  rw [hasToken, hasToken, children_withoutComments, List.any_map, List.any_filter]
  refine congrArg (List.any node.children) (funext fun child => ?_)
  simp only [Function.comp_apply, named_withoutComments, kind_withoutComments]
  grind

/-- The first named child of a construct that is read by it. -/
theorem head?_namedChildren_withoutComments (h : node.Tidy) (hkind : node.kind ∈ leadingKinds) :
    node.withoutComments.namedChildren.head? = node.namedChildren.head?.map withoutComments := by
  rw [namedChildren_withoutComments]
  exact head?_map_filter fun first hfirst => decide_eq_true (h.kind_head?_ne hkind hfirst)

theorem contains_modifiers_withoutComments (h : node.Tidy) {modifier : String}
    (hmodifier : modifier ≠ "comment") :
    node.withoutComments.modifiers.contains modifier = node.modifiers.contains modifier := by
  have hbefore : node.withoutComments.children.takeWhile (fun child => !child.inField "name") =
      ((node.children.takeWhile fun child => !child.inField "name").filter
        (·.kind ≠ "comment")).map withoutComments := by
    rw [children_withoutComments, List.takeWhile_map]
    congr 1
    rw [← takeWhile_filter]
    · simp [Function.comp_def]
    · intro child hchild hcomment
      have hkind : child.kind = "comment" := by simpa using hcomment
      simp [inField, (h.leaf hchild hkind).1]
  rw [modifiers, modifiers, hbefore]
  simp only [List.contains_eq_any_beq, List.any_map, List.any_filter, List.filter_map]
  refine congrArg (List.any _) (funext fun child => ?_)
  simp only [Function.comp_apply, named_withoutComments, kind_withoutComments]
  grind

end Node

end ExportIndex
