import ExportIndex.Proofs.Extraction.InnerScopes
import ExportIndex.Proofs.Extraction.Patterns
import ExportIndex.Proofs.Extraction.SourceOrder

/-!
# Local variables

The local variables of a function are what the declarations in its body bind, outside inner functions and
classes. Each name in the pattern of a declarator makes one variable.
-/

namespace ExportIndex

/-! ## Declarations of a body -/

namespace Node

/-- Whether a node is a `var`, `let` or `const` declaration. The head of a `for` loop over the values or keys
of something is none. -/
def declaresVariables (node : Node) : Bool := node.kind ∈ ["variable_declaration", "lexical_declaration"]

/-- Whether a body goes on inside a construct: it is no function or class, and no declaration of variables. -/
def letsThrough (node : Node) : Bool := node.named && !node.opensScope && !node.declaresVariables

/-- The scope that the variables of a declaration have. -/
def variableScope (node : Node) : VariableScope :=
  if node.kind = "variable_declaration" then .functionBody else .block

theorem variablesBelow_eq_ite (source : String) (node : Node) :
    node.variablesBelow source = node.namedChildren.flatMap fun child =>
      if child.declaresVariables then child.declaredVariables source false child.variableScope
      else if child.opensScope then []
      else child.variablesBelow source := by
  rw [variablesBelow_eq]
  apply congrArg (List.flatMap · _)
  funext child
  by_cases hvar : child.kind = "variable_declaration"
  · simp [declaresVariables, variableScope, hvar]
  · by_cases hlexical : child.kind = "lexical_declaration"
    · simp [declaresVariables, variableScope, hlexical]
    · simp [declaresVariables, hvar, hlexical]

end Node

/-- Whether a site below a body is a declaration of the body itself: the body goes on inside every construct
between the two. -/
def Site.isLocalDeclaration (site : Site) : Bool :=
  site.node.named && site.node.declaresVariables && !site.ancestors.isEmpty &&
    site.ancestors.dropLast.all Node.letsThrough

/-- The declarations below a body that lie in no inner function or class and in no other declaration. -/
def Node.localDeclarations (body : Node) : List Node :=
  ((Site.ofRoot body).preorder.filter Site.isLocalDeclaration).map Site.node

namespace Site

variable {source : String} {site child other : Site}

/-- A declaration of the body itself lies only in constructs that let through. -/
theorem letsThrough_of_below (hbelow : site.Below other) (htop : site.ancestors ≠ [])
    (h : other.isLocalDeclaration = true) : site.node.letsThrough = true := by
  obtain ⟨between, hancestors⟩ := Below.exists_ancestors hbelow
  simp only [isLocalDeclaration, Bool.and_eq_true, List.all_eq_true] at h
  apply h.2
  rw [hancestors, List.dropLast_append_of_ne_nil (List.cons_ne_nil _ _),
    List.dropLast_cons_of_ne_nil htop]
  exact List.mem_append_right _ List.mem_cons_self

theorem filter_isLocalDeclaration_below (htop : site.ancestors ≠ [])
    (h : site.node.letsThrough = false) :
    (site.children.flatMap preorder).filter isLocalDeclaration = [] := by
  apply List.filter_eq_nil_iff.mpr
  intro other hother hlocal
  obtain ⟨child, hchild, hunder⟩ := List.mem_flatMap.mp hother
  have hthrough := letsThrough_of_below (.head' hchild (mem_preorder_iff.mp hunder)) htop hlocal
  rw [h] at hthrough
  cases hthrough

theorem ancestors_ne_nil_of_mem_children (hchild : child ∈ site.children) : child.ancestors ≠ [] := by
  obtain ⟨index, node, -, rfl⟩ := mem_children_iff.mp hchild
  exact List.cons_ne_nil _ _

section Children

variable (hopen : (site.node :: site.ancestors).dropLast.all Node.letsThrough = true)
  (hchild : child ∈ site.children)

include hopen hchild

theorem isLocalDeclaration_of_mem_children :
    child.isLocalDeclaration = (child.node.named && child.node.declaresVariables) := by
  obtain ⟨index, node, -, rfl⟩ := mem_children_iff.mp hchild
  simp [isLocalDeclaration, hopen]

theorem letsThrough_of_mem_children (h : child.node.letsThrough = true) :
    (child.node :: child.ancestors).dropLast.all Node.letsThrough = true := by
  obtain ⟨index, node, -, rfl⟩ := mem_children_iff.mp hchild
  rw [List.dropLast_cons_of_ne_nil (List.cons_ne_nil _ _), List.all_cons, h, Bool.true_and]
  exact hopen

end Children

theorem filter_preorder_of_not_letsThrough (htop : site.ancestors ≠ [])
    (h : site.node.letsThrough = false) :
    site.preorder.filter isLocalDeclaration = if site.isLocalDeclaration then [site] else [] := by
  rw [preorder_eq, List.filter_cons, filter_isLocalDeclaration_below htop h]

/-- The variables below a site are those of the declarations below it, as long as the constructs above let
through. -/
theorem variablesBelow_eq_flatMap {site : Site}
    (hopen : (site.node :: site.ancestors).dropLast.all Node.letsThrough = true) :
    site.node.variablesBelow source =
      ((site.children.flatMap preorder).filter isLocalDeclaration).flatMap fun declaration =>
        declaration.node.declaredVariables source false declaration.node.variableScope := by
  have hnamed : site.node.namedChildren = (site.children.filter (·.node.named)).map node :=
    (map_node_namedChildren site).symm
  rw [Node.variablesBelow_eq_ite, hnamed, List.filter_flatMap, List.flatMap_assoc]
  -- Named children are read by what they are, and the others are skipped. The induction goes on inside
  -- those that let through.
  refine flatMap_map_filter (fun child hchild hkept => ?_) fun child hchild hleft => ?_
  · have htop := ancestors_ne_nil_of_mem_children hchild
    have hlocal := isLocalDeclaration_of_mem_children hopen hchild
    rw [hkept, Bool.true_and] at hlocal
    cases hdeclares : child.node.declaresVariables with
    | true =>
        rw [filter_preorder_of_not_letsThrough htop (by simp [Node.letsThrough, hdeclares]), hlocal,
          hdeclares, if_pos rfl, if_pos rfl, List.flatMap_singleton]
    | false =>
        rw [if_neg Bool.false_ne_true]
        cases hscope : child.node.opensScope with
        | true =>
            rw [filter_preorder_of_not_letsThrough htop (by simp [Node.letsThrough, hscope]), hlocal,
              hdeclares]
            rfl
        | false =>
            have hthrough : child.node.letsThrough = true := by
              rw [Node.letsThrough, hkept, hscope, hdeclares]
              rfl
            rw [if_neg Bool.false_ne_true, preorder_eq, List.filter_cons_of_neg (by simp [hlocal, hdeclares])]
            exact variablesBelow_eq_flatMap (letsThrough_of_mem_children hopen hchild hthrough)
  · have htop := ancestors_ne_nil_of_mem_children hchild
    have hnamed : child.node.named = false := by simpa using hleft
    rw [filter_preorder_of_not_letsThrough htop (by simp [Node.letsThrough, hnamed]),
      isLocalDeclaration_of_mem_children hopen hchild, hnamed]
    rfl
termination_by site.node
decreasing_by exact Node.sizeOf_child (node_mem_of_mem_children hchild)

end Site

/-! ## Bindings -/

/-- A name that a declaration binds, with its declarator. -/
structure LocalBinding where
  declaration : Node
  declarator : Node
  leaf : Node

/-- The variable that a binding makes. Only a plain name has the declared type. -/
def LocalBinding.variable (source : String) (b : LocalBinding) : VariableDeclaration where
  name := b.leaf.text source
  exported := false
  isConst := (b.declaration.field? "kind").any fun keyword => keyword.text source = "const"
  scope := b.declaration.variableScope
  type? :=
    if (b.declarator.field? "name").any (·.kind = "identifier") then b.declarator.fieldType? source "type"
    else none
  span := b.declarator.span

namespace Node

variable {source : String} {node body declaration : Node}

def declarators (declaration : Node) : List Node := declaration.childrenOfKind ["variable_declarator"]

def declaredBindings (declaration : Node) : List LocalBinding :=
  declaration.declarators.flatMap fun declarator =>
    ((declarator.field? "name").toList.flatMap boundLeaves).map (⟨declaration, declarator, ·⟩)

/-- What the declarations in the body of a function bind, outside inner functions and classes. -/
def localBindings (node : Node) : List LocalBinding :=
  (node.field? "body").toList.flatMap fun body => body.localDeclarations.flatMap declaredBindings

/-- The declarators in the body of a function have patterns for names. -/
def DeclaresPatterns (node : Node) : Prop :=
  ∀ body ∈ node.field? "body", ∀ declaration ∈ body.localDeclarations,
    ∀ declarator ∈ declaration.declarators, ∀ pattern ∈ declarator.field? "name", pattern.IsPattern

theorem variablesBelow_eq_localDeclarations (source : String) (body : Node) :
    body.variablesBelow source = body.localDeclarations.flatMap fun declaration =>
      declaration.declaredVariables source false declaration.variableScope := by
  have htop : (Site.ofRoot body).isLocalDeclaration = false := by
    simp [Site.isLocalDeclaration, Site.ofRoot]
  have hopen : ((Site.ofRoot body).node :: (Site.ofRoot body).ancestors).dropLast.all letsThrough = true :=
    rfl
  rw [localDeclarations, List.flatMap_map, Site.preorder_eq, List.filter_cons_of_neg (by simp [htop])]
  exact Site.variablesBelow_eq_flatMap hopen

theorem declaredVariables_eq_map (h : ∀ declarator ∈ declaration.declarators,
      ∀ pattern ∈ declarator.field? "name", pattern.IsPattern) :
    declaration.declaredVariables source false declaration.variableScope =
      declaration.declaredBindings.map (LocalBinding.variable source) := by
  rw [declaredVariables, declaredBindings, List.map_flatMap]
  apply List.flatMap_congr
  intro declarator hdeclarator
  rw [declaratorVariables, List.map_map]
  cases hname : declarator.field? "name" with
  | none => rfl
  | some pattern =>
      have hpattern := h declarator hdeclarator pattern hname
      dsimp only
      rw [hpattern.boundNames_eq, List.map_map, Option.toList_some, List.flatMap_singleton]
      apply List.map_congr_left
      intro leaf _
      simp [LocalBinding.variable, hname]

theorem bodyVariables_eq_map (h : node.DeclaresPatterns) :
    node.bodyVariables source = node.localBindings.map (LocalBinding.variable source) := by
  rw [bodyVariables, localBindings]
  cases hbody : node.field? "body" with
  | none => rfl
  | some body =>
      have hpatterns := h body hbody
      dsimp only
      rw [Option.toList_some, List.flatMap_singleton, List.map_flatMap, variablesBelow_eq_localDeclarations]
      exact List.flatMap_congr fun declaration hdeclaration =>
        declaredVariables_eq_map (hpatterns declaration hdeclaration)

end Node

/-! ## Source order -/

namespace Site

variable {site : Site}

/-- In a well placed tree, a site comes before another in preorder if it stands above it or ends before it
begins. -/
theorem pairwise_preorder {site : Site} (h : site.node.WellPlaced) :
    site.preorder.Pairwise fun earlier later =>
      earlier.Below later ∨ earlier.node.span.Before later.node.span := by
  rw [preorder_eq, List.pairwise_cons, List.pairwise_flatMap]
  refine ⟨fun later hlater => ?_, fun child hchild => ?_, ?_⟩
  · obtain ⟨child, hchild, hin⟩ := List.mem_flatMap.mp hlater
    exact .inl (.head' hchild (mem_preorder_iff.mp hin))
  · exact pairwise_preorder (h.of_mem_children (node_mem_of_mem_children hchild))
  · have hapart := h.apart
    rw [← map_node_children, List.pairwise_map] at hapart
    refine hapart.imp_of_mem fun hchild hnext hbefore earlier hearlier later hlater => .inr ?_
    have hwithin := Under.wellPlaced (mem_preorder_iff.mp hearlier)
      (h.of_mem_children (node_mem_of_mem_children hchild))
    have hwithin' := Under.wellPlaced (mem_preorder_iff.mp hlater)
      (h.of_mem_children (node_mem_of_mem_children hnext))
    exact hbefore.within hwithin.2 hwithin'.2
termination_by site.node
decreasing_by exact Node.sizeOf_child (node_mem_of_mem_children hchild)

/-- Sites that are found in a well placed tree, none above another, are found in source order. -/
theorem pairwise_filter_preorder (h : site.node.WellPlaced) {found : Site → Bool}
    (hapart : ∀ earlier later, earlier.Below later → found earlier = true → found later = true → False) :
    ((site.preorder.filter found).map node).Pairwise fun node next => node.span.Before next.span := by
  rw [List.pairwise_map]
  apply ((pairwise_preorder h).filter found).imp_of_mem
  intro earlier later hearlier hlater hplaced
  apply hplaced.resolve_left
  intro hbelow
  exact hapart earlier later hbelow (List.mem_filter.mp hearlier).2 (List.mem_filter.mp hlater).2

theorem within_of_mem_filter_preorder (h : site.node.WellPlaced) {found : Site → Bool} {inner : Node}
    (hinner : inner ∈ (site.preorder.filter found).map node) :
    inner.WellPlaced ∧ inner.span.Within site.node.span := by
  obtain ⟨other, hother, rfl⟩ := List.mem_map.mp hinner
  exact Under.wellPlaced (mem_preorder_iff.mp (List.mem_filter.mp hother).1) h

end Site

namespace Node

variable {node body pattern declaration : Node}

theorem pairwise_boundLeaves (h : pattern.WellPlaced) :
    pattern.boundLeaves.Pairwise fun leaf next => leaf.span.Before next.span := by
  have htop : (Site.ofRoot pattern).node.WellPlaced := h
  apply Site.pairwise_filter_preorder htop
  intro earlier later hbelow hearlier _
  have hleaf : earlier.node.children = [] := by
    simp only [Site.isBoundName, Bool.and_eq_true, List.isEmpty_iff] at hearlier
    exact hearlier.1.2
  obtain ⟨child, hchild, -⟩ := Relation.TransGen.head'_iff.mp hbelow
  have hmem := Site.node_mem_of_mem_children hchild
  rw [hleaf] at hmem
  cases hmem

theorem pairwise_localDeclarations (h : body.WellPlaced) :
    body.localDeclarations.Pairwise fun declaration next => declaration.span.Before next.span := by
  have htop : (Site.ofRoot body).node.WellPlaced := h
  apply Site.pairwise_filter_preorder htop
  intro earlier later hbelow hearlier hlater
  simp only [Site.isLocalDeclaration, Bool.and_eq_true, Bool.not_eq_true', List.isEmpty_eq_false_iff]
    at hearlier
  have hthrough := Site.letsThrough_of_below hbelow hearlier.1.2 hlater
  simp [letsThrough, hearlier.1.1.2] at hthrough

end Node

/-- The names of some bindings lie within a span, in source order. -/
structure LocalBinding.InOrder (outer : Span) (bindings : List LocalBinding) : Prop where
  within : ∀ b ∈ bindings, b.leaf.span.Within outer
  before : bindings.Pairwise fun b next => b.leaf.span.Before next.leaf.span

/-- Bindings of nodes that follow one another are in order. -/
theorem LocalBinding.InOrder.flatMap {outer : Span} {nodes : List Node} {bindings : Node → List LocalBinding}
    (hnodes : nodes.Pairwise fun node next => node.span.Before next.span)
    (hwithin : ∀ node ∈ nodes, node.span.Within outer)
    (h : ∀ node ∈ nodes, InOrder node.span (bindings node)) : InOrder outer (nodes.flatMap bindings) where
  within b hb := by
    obtain ⟨node, hnode, hin⟩ := List.mem_flatMap.mp hb
    exact ((h node hnode).within b hin).trans (hwithin node hnode)
  before := by
    rw [List.pairwise_flatMap]
    refine ⟨fun node hnode => (h node hnode).before, hnodes.imp_of_mem ?_⟩
    intro node next hnode hnext hbefore b hb b' hb'
    exact hbefore.within ((h node hnode).within b hb) ((h next hnext).within b' hb')

namespace Node

variable {node declaration : Node}

theorem declarators_sublist (declaration : Node) :
    declaration.declarators.Sublist declaration.children :=
  List.filter_sublist.trans List.filter_sublist

theorem inOrder_declaredBindings (h : declaration.WellPlaced) :
    LocalBinding.InOrder declaration.span declaration.declaredBindings := by
  have hsublist := declaration.declarators_sublist
  apply LocalBinding.InOrder.flatMap (h.apart.sublist hsublist)
  · exact fun declarator hdeclarator => h.within (hsublist.subset hdeclarator)
  · intro declarator hdeclarator
    have hplaced := h.of_mem_children (hsublist.subset hdeclarator)
    cases hname : declarator.field? "name" with
    | none => exact ⟨fun b hb => by simp at hb, .nil⟩
    | some pattern =>
        have hmem := List.mem_of_find?_eq_some hname
        have hpattern : (Site.ofRoot pattern).node.WellPlaced := hplaced.of_mem_children hmem
        rw [Option.toList_some, List.flatMap_singleton]
        refine ⟨fun b hb => ?_, List.pairwise_map.mpr (pairwise_boundLeaves hpattern)⟩
        obtain ⟨leaf, hleaf, rfl⟩ := List.mem_map.mp hb
        exact (Site.within_of_mem_filter_preorder hpattern hleaf).2.trans (hplaced.within hmem)

/-- In a well placed tree, the names that a body binds are found in source order. -/
theorem pairwise_localBindings (h : node.WellPlaced) :
    node.localBindings.Pairwise fun b next => b.leaf.span.Before next.leaf.span := by
  rw [localBindings]
  cases hbody : node.field? "body" with
  | none => exact .nil
  | some body =>
      have hplaced : (Site.ofRoot body).node.WellPlaced :=
        h.of_mem_children (List.mem_of_find?_eq_some hbody)
      have hfound : ∀ declaration ∈ body.localDeclarations,
          declaration.WellPlaced ∧ declaration.span.Within body.span :=
        fun _ hdeclaration => Site.within_of_mem_filter_preorder hplaced hdeclaration
      rw [Option.toList_some, List.flatMap_singleton]
      exact (LocalBinding.InOrder.flatMap (pairwise_localDeclarations hplaced)
        (fun declaration hdeclaration => (hfound declaration hdeclaration).2)
        fun declaration hdeclaration => inOrder_declaredBindings (hfound declaration hdeclaration).1).before

/-! ## Functions, methods and constructors -/

/-- The local variables that are listed for a function, method or constructor are those of its body. -/
structure ListsLocals (source : String) (node : Node) (locals : Node → List VariableDeclaration) :
    Prop where
  /-- They are exactly what the declarations of the body bind, one for each name. -/
  eq_map : locals node = node.localBindings.map (LocalBinding.variable source)
  /-- The names are found in source order. -/
  before : node.WellPlaced →
    node.localBindings.Pairwise fun b next => b.leaf.span.Before next.leaf.span
  /-- What stands below inner functions and classes may be anything else. -/
  eq_of_outline : ∀ other : Node,
    (other.field? "body").map innerOutline = (node.field? "body").map innerOutline →
      locals other = locals node

/-- Local variables are complete, and stop at inner scopes: functions, methods and constructors list the
names in the patterns of all declarations that belong to the body itself, and nothing else. -/
theorem listsLocals_of_declaresPatterns (source : String) {node : Node} (h : node.DeclaresPatterns) :
    (∀ exported, node.ListsLocals source fun f => (f.toFunction source exported).locals) ∧
      (node.ListsLocals source fun m => (m.toMethod source).locals) ∧
      node.ListsLocals source fun c => (c.toConstructor source).locals := by
  have hlists : node.ListsLocals source (bodyVariables source) :=
    ⟨bodyVariables_eq_map h, pairwise_localBindings, fun _ => bodyVariables_congr⟩
  exact ⟨fun _ => hlists, hlists, hlists⟩

end Node

namespace Document

/-- A pattern in a sample: an object pattern with a property and an array pattern with a default value. -/
def nestedPattern : Node :=
  part "object_pattern" 19 34 ["name"]
    [part "shorthand_property_identifier_pattern" 20 21 [] [],
      part "pair_pattern" 23 33 []
        [part "property_identifier" 23 24 ["key"] [],
          part "array_pattern" 26 33 ["value"]
            [part "assignment_pattern" 27 32 []
              [part "identifier" 27 28 ["left"] [], mark "=" 29 30,
                part "identifier" 31 32 ["right"] []]]]]

def patternDeclarator : Node :=
  part "variable_declarator" 19 38 []
    [nestedPattern, mark "=" 35 36, part "identifier" 37 38 ["value"] []]

def patternDeclaration : Node :=
  part "variable_declaration" 15 39 [] [mark "var" 15 18, patternDeclarator]

def blockDeclarator : Node :=
  part "variable_declarator" 69 77 []
    [part "identifier" 69 70 ["name"] [],
      part "type_annotation" 70 73 ["type"] [mark ":" 70 71, part "type_identifier" 72 73 [] []],
      mark "=" 74 75, part "identifier" 76 77 ["value"] []]

def blockDeclaration : Node :=
  part "lexical_declaration" 65 78 [] [mark "let" 65 68, blockDeclarator]

def blockBody : Node :=
  part "statement_block" 13 82 ["body"]
    [patternDeclaration,
      part "function_declaration" 40 62 []
        [mark "function" 40 48, part "identifier" 49 50 ["name"] [],
          part "formal_parameters" 50 52 ["parameters"] [],
          part "statement_block" 53 62 ["body"]
            [part "variable_declaration" 55 60 []
              [mark "var" 55 58,
                part "variable_declarator" 59 60 [] [part "identifier" 59 60 ["name"] []]]]],
      part "statement_block" 63 80 [] [blockDeclaration]]

/-- A function with a destructuring declaration, an inner function and a block in its body. -/
def destructuring : Document where
  text :=
    "function f() \x7b var \x7ba, b: [c = d]\x7d = e; function g() \x7b var h \x7d \x7b let i: T = a; \x7d \x7d"
  root :=
    part "function_declaration" 0 82 []
      [mark "function" 0 8, part "identifier" 9 10 ["name"] [],
        part "formal_parameters" 10 12 ["parameters"] [], blockBody]

theorem isPattern_nestedPattern : nestedPattern.IsPattern := by
  have hparts : ∀ child ∈ nestedPattern.bindingParts, child.IsPattern := by
    refine List.forall_mem_cons.mpr ⟨.name (by decide) rfl, List.forall_mem_singleton.mpr ?_⟩
    refine .pair rfl rfl rfl (.group (by decide) (List.forall_mem_singleton.mpr ?_))
    exact .withDefault (by decide) rfl rfl (.name (by decide) rfl)
  exact .group (by decide) hparts

theorem declaresPatterns_destructuring : destructuring.root.DeclaresPatterns := by
  intro body hbody declaration hdeclaration declarator hdeclarator pattern hpattern
  have hlocal : blockBody.localDeclarations = [patternDeclaration, blockDeclaration] := by cbv
  obtain rfl : blockBody = body := Option.some.inj hbody
  rw [hlocal] at hdeclaration
  rcases List.mem_pair.mp hdeclaration with rfl | rfl
  · obtain rfl := List.mem_singleton.mp hdeclarator
    obtain rfl : nestedPattern = pattern := Option.some.inj hpattern
    exact isPattern_nestedPattern
  · obtain rfl := List.mem_singleton.mp hdeclarator
    obtain rfl := Option.some.inj hpattern
    exact .name (by decide) rfl

theorem listsLocals_destructuring :
    destructuring.root.DeclaresPatterns ∧
      (destructuring.root.toFunction destructuring.text false).locals =
        [⟨"a", false, false, .functionBody, none, ⟨19, 38⟩⟩,
          ⟨"c", false, false, .functionBody, none, ⟨19, 38⟩⟩,
          ⟨"i", false, false, .block, some "T", ⟨69, 77⟩⟩] ∧
      destructuring.root.ListsLocals destructuring.text
        fun f => (f.toFunction destructuring.text false).locals := by
  have hlists := Node.listsLocals_of_declaresPatterns destructuring.text declaresPatterns_destructuring
  have hlists := hlists.1 false
  have hbindings : destructuring.root.localBindings =
      [⟨patternDeclaration, patternDeclarator, part "shorthand_property_identifier_pattern" 20 21 [] []⟩,
        ⟨patternDeclaration, patternDeclarator, part "identifier" 27 28 ["left"] []⟩,
        ⟨blockDeclaration, blockDeclarator, part "identifier" 69 70 ["name"] []⟩] := by
    cbv
  refine ⟨declaresPatterns_destructuring, ?_, hlists⟩
  rw [hlists.eq_map, hbindings]
  decide +kernel

end Document

end ExportIndex
