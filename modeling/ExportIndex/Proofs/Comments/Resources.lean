import ExportIndex.Proofs.Comments.Extraction
import ExportIndex.Proofs.Extraction.Usages

/-!
# Resources without comments

A document has the same resource without its comments if no comment comes first in a construct that
is read by its first part. In each kind of construct that is read so, a comment in front of that part
can change the resource.
-/

namespace ExportIndex

/-- The names that a tree uses go to the same resources without comments. -/
theorem Site.withUsages_withoutComments {source : String} {header : Resource} {exportsMembers : Bool}
    {top : Site} (h : top.node.Tidy) (hroot : top.address = []) :
    (top.withoutComments.extract source header exportsMembers).withUsages source top.withoutComments =
      (top.extract source header exportsMembers).withUsages source top := by
  rw [Extraction.withUsages, Extraction.withUsages, uses_withoutComments h,
    resource_extract_withoutComments h, List.foldl_map]
  refine List.foldl_ext _ _ _ fun current use huse => ?_
  obtain ⟨hpreorder, hcounts⟩ := List.mem_filter.mp huse
  have hkind : use.node.kind ≠ "comment" := by
    intro hcomment
    simp [isCandidate, hcomment] at hcounts
  have hreaches := Under.reaches h (mem_preorder_iff.mp hpreorder) hkind
  rw [Resource.addUse, Resource.addUse, ownerAbove_withoutComments h hroot hreaches,
    node_withoutComments, Node.text_withoutComments]

namespace Node

theorem withoutComments_mk {kind : String} {named missing : Bool} {span : Span} {fields : List String}
    {children : List Node} :
    withoutComments ⟨kind, named, missing, span, fields, children⟩ =
      ⟨kind, named, missing, span, fields,
        (children.filter (·.kind ≠ "comment")).map withoutComments⟩ := by
  rw [withoutComments]

theorem commentedWithin_mk {allowed : String → Prop} {kind : String} {named missing : Bool}
    {span : Span} {fields : List String} {children : List Node} :
    CommentedWithin allowed ⟨kind, named, missing, span, fields, children⟩ ↔
      (∀ child ∈ children, child.kind = "comment" → child.fields = [] ∧ child.children = []) ∧
        (∀ child ∈ (children.filter (·.named)).head?, child.kind = "comment" → allowed kind) ∧
          ∀ child ∈ children, CommentedWithin allowed child := by
  constructor
  · rintro ⟨hleaf, hfirst, hbelow⟩
    exact ⟨hleaf, hfirst, hbelow⟩
  · rintro ⟨hleaf, hfirst, hbelow⟩
    exact .intro hleaf hfirst hbelow

end Node

namespace Document

/-- The document without its comments, in the same text. -/
def withoutComments (document : Document) : Document :=
  { document with root := document.root.withoutComments }

theorem toResource_withoutComments {document : Document} (h : document.root.Tidy)
    (file root : Path) :
    document.withoutComments.toResource file root = document.toResource file root := by
  have htop : (Site.ofRoot document.root).node.Tidy := h
  exact Site.withUsages_withoutComments htop rfl

/-! ## Comments in front of a first part -/

section Samples

/-- A keyword or mark in a sample. -/
def mark (kind : String) (start stop : Nat) : Node := ⟨kind, false, false, ⟨start, stop⟩, [], []⟩

/-- A construct in a sample, in some fields of the construct around it. -/
def part (kind : String) (start stop : Nat) (fields : List String) (children : List Node) : Node :=
  ⟨kind, true, false, ⟨start, stop⟩, fields, children⟩

/-- The comment of a sample, unless it is left out. -/
def remark (commented : Bool) (start stop : Nat) : List Node :=
  if commented then [part "comment" start stop [] []] else []

/-- A function with the comment between the colon and its return type. -/
def typedFunction (kind : String) (commented : Bool) : Document where
  text := "function f(): /* c */ T;"
  root :=
    part "program" 0 24 []
      [part "function_signature" 0 24 []
        [mark "function" 0 8, part "identifier" 9 10 ["name"] [],
          part "formal_parameters" 10 12 ["parameters"] [mark "(" 10 11, mark ")" 11 12],
          part kind 12 23 ["return_type"]
            (mark ":" 12 13 :: remark commented 14 21 ++ [part "type_identifier" 22 23 [] []]),
          mark ";" 23 24]]

/-- A function with the comment between the dots and the name of its rest parameter. -/
def restFunction (commented : Bool) : Document where
  text := "function f(.../* c */ a);"
  root :=
    part "program" 0 25 []
      [part "function_signature" 0 25 []
        [mark "function" 0 8, part "identifier" 9 10 ["name"] [],
          part "formal_parameters" 10 24 ["parameters"]
            [mark "(" 10 11,
              part "required_parameter" 11 23 []
                [part "rest_pattern" 11 23 ["pattern"]
                  (mark "..." 11 14 :: remark commented 14 21 ++ [part "identifier" 22 23 [] []])],
              mark ")" 23 24],
          mark ";" 24 25]]

/-- An export of a whole module with the comment in front of its new name. -/
def starExport (commented : Bool) : Document where
  text := "export * as /* c */ n from \"m\";"
  root :=
    part "program" 0 31 []
      [part "export_statement" 0 31 []
        [mark "export" 0 6,
          part "namespace_export" 7 21 []
            ([mark "*" 7 8, mark "as" 9 11] ++ remark commented 12 19 ++
              [part "identifier" 20 21 [] []]),
          mark "from" 22 26,
          part "string" 27 30 ["source"]
            [mark "\"" 27 28, part "string_fragment" 28 29 [] [], mark "\"" 29 30],
          mark ";" 30 31]]

/-- A class with the comment behind `declare`. -/
def ambientClass (commented : Bool) : Document where
  text := "declare /* c */ class X {}"
  root :=
    part "program" 0 26 []
      [part "ambient_declaration" 0 26 []
        (mark "declare" 0 7 :: remark commented 8 15 ++
          [part "class_declaration" 16 26 []
            [mark "class" 16 21, part "type_identifier" 22 23 ["name"] [],
              part "class_body" 24 26 ["body"] [mark "\x7b" 24 25, mark "\x7d" 25 26]]])]

theorem withoutComments_typedFunction {kind : String} (hkind : kind ≠ "comment") :
    (typedFunction kind true).withoutComments = typedFunction kind false := by
  simp [withoutComments, typedFunction, part, mark, remark, Node.withoutComments_mk, hkind]

theorem commentedWithin_typedFunction {kind : String} (hkind : kind ≠ "comment") :
    (typedFunction kind true).root.CommentedWithin (· = kind) := by
  simp [typedFunction, part, mark, remark, Node.commentedWithin_mk, hkind]

theorem withoutComments_restFunction :
    (restFunction true).withoutComments = restFunction false := by
  simp [withoutComments, restFunction, part, mark, remark, Node.withoutComments_mk]

theorem withoutComments_starExport : (starExport true).withoutComments = starExport false := by
  simp [withoutComments, starExport, part, mark, remark, Node.withoutComments_mk]

theorem withoutComments_ambientClass :
    (ambientClass true).withoutComments = ambientClass false := by
  simp [withoutComments, ambientClass, part, mark, remark, Node.withoutComments_mk]

end Samples

section View

variable {α : Type} {view : Resource → α} {file root : Path}

theorem toResource_ne_of_view {hidden shown : Document} (hwithout : hidden.withoutComments = shown)
    (hview : ∀ r : Resource, view r.withoutUsages = view r)
    (hne : view (Resource.ofParts (.ofFile file root) shown.parts) ≠
      view (Resource.ofParts (.ofFile file root) hidden.parts)) :
    hidden.withoutComments.toResource file root ≠ hidden.toResource file root := by
  intro heq
  refine hne ?_
  rw [← view_toResource hview shown, ← view_toResource hview hidden, ← hwithout, heq]

end View

/-- In each kind of construct that is read by its first part, a comment in front of that part can
change the resource. -/
theorem exists_toResource_withoutComments_ne : ∀ kind ∈ leadingKinds, ∃ document : Document,
    document.root.CommentedWithin (· = kind) ∧ ∃ file root : Path,
      document.withoutComments.toResource file root ≠ document.toResource file root := by
  intro kind hkind
  rcases List.mem_append.mp hkind with hannotating | hother
  · have hne : kind ≠ "comment" := by
      rintro rfl
      revert hannotating
      decide
    have hdiffer : ∀ kind ∈ annotatingKinds,
        (Resource.ofParts (.ofFile ⟨"/w/a.ts"⟩ ⟨"/w"⟩) (typedFunction kind false).parts).declarations ≠
          (Resource.ofParts (.ofFile ⟨"/w/a.ts"⟩ ⟨"/w"⟩)
            (typedFunction kind true).parts).declarations := by
      decide +kernel
    exact ⟨_, commentedWithin_typedFunction hne, _, _,
      toResource_ne_of_view (withoutComments_typedFunction hne) Resource.declarations_withoutUsages
        (hdiffer kind hannotating)⟩
  · simp only [List.mem_cons, List.not_mem_nil, or_false] at hother
    rcases hother with rfl | rfl | rfl
    · refine ⟨restFunction true, ?_, ⟨"/w/a.ts"⟩, ⟨"/w"⟩,
        toResource_ne_of_view withoutComments_restFunction Resource.declarations_withoutUsages
          (by decide +kernel)⟩
      simp [restFunction, part, mark, remark, Node.commentedWithin_mk]
    · refine ⟨starExport true, ?_, ⟨"/w/a.ts"⟩, ⟨"/w"⟩,
        toResource_ne_of_view withoutComments_starExport Resource.exports_withoutUsages
          (by decide +kernel)⟩
      simp [starExport, part, mark, remark, Node.commentedWithin_mk]
    · refine ⟨ambientClass true, ?_, ⟨"/w/a.ts"⟩, ⟨"/w"⟩,
        toResource_ne_of_view withoutComments_ambientClass Resource.declarations_withoutUsages
          (by decide +kernel)⟩
      simp [ambientClass, part, mark, remark, Node.commentedWithin_mk]

/-- A document has the same resource without its comments exactly as long as none comes first in a
construct that is read by its first part. -/
theorem toResource_withoutComments_iff (allowed : String → Prop) :
    (∀ (document : Document) (file root : Path), document.root.CommentedWithin allowed →
      document.withoutComments.toResource file root = document.toResource file root) ↔
        ∀ kind ∈ leadingKinds, ¬ allowed kind := by
  constructor
  · intro h kind hkind hallowed
    obtain ⟨document, hcommented, file, root, hne⟩ := exists_toResource_withoutComments_ne kind hkind
    exact hne (h document file root (hcommented.mono fun _ heq => heq ▸ hallowed))
  · intro h document file root hcommented
    have htidy : document.root.Tidy := hcommented.mono fun kind hallowed hkind => h kind hkind hallowed
    exact toResource_withoutComments htidy file root

/-- A comment behind `declare` hides the class that is declared. -/
theorem toResource_ambientClass :
    (ambientClass true).root.CommentedWithin (fun _ => True) ∧
      ((ambientClass true).toResource ⟨"/w/a.ts"⟩ ⟨"/w"⟩).declarations = [] ∧
        ((ambientClass true).withoutComments.toResource ⟨"/w/a.ts"⟩ ⟨"/w"⟩).declarations.map
          Declaration.name? = [some "X"] := by
  refine ⟨?_, ?_, ?_⟩
  · simp [ambientClass, part, mark, remark, Node.commentedWithin_mk]
  · rw [view_toResource Resource.declarations_withoutUsages]
    decide +kernel
  · rw [withoutComments_ambientClass, view_toResource Resource.declarations_withoutUsages]
    decide +kernel

end Document

end ExportIndex
