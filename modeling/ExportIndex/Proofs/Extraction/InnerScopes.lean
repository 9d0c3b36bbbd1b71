import ExportIndex.Proofs.Comments.Declarations

/-!
# Inner scopes

The outline of a tree leaves out what stands below the functions and classes in it. The variables of a body
can be told from its outline.
-/

namespace ExportIndex

namespace Node

/-- The tree without what stands below the functions and classes in it. -/
def outline (node : Node) : Node :=
  { node with
    children := if node.opensScope then [] else node.children.map fun child => child.outline }
termination_by node
decreasing_by exact sizeOf_child ‹_›

/-- The tree without what stands below the functions and classes inside it. -/
def innerOutline (node : Node) : Node := { node with children := node.children.map outline }

variable {source : String} {node : Node}

theorem kind_outline (node : Node) : node.outline.kind = node.kind := by rw [outline]

theorem text_outline (source : String) (node : Node) : node.outline.text source = node.text source := by
  rw [text, outline, text]

theorem outline_of_not_opensScope (h : node.opensScope = false) : node.outline = node.innerOutline := by
  rw [outline, innerOutline, h]
  rfl

theorem field?_innerOutline (node : Node) (field : String) :
    node.innerOutline.field? field = (node.field? field).map outline := by
  have hfield : (·.inField field) ∘ outline = (·.inField field) := by
    funext child
    rw [Function.comp_apply, inField, outline, inField]
  rw [field?, innerOutline, List.find?_map, hfield, field?]

theorem namedChildren_innerOutline (node : Node) :
    node.innerOutline.namedChildren = node.namedChildren.map outline := by
  have hnamed : named ∘ outline = named := by
    funext child
    rw [Function.comp_apply, outline]
  rw [namedChildren, innerOutline, List.filter_map, hnamed, namedChildren]

theorem childrenOfKind_innerOutline (node : Node) (kinds : List String) :
    node.innerOutline.childrenOfKind kinds = (node.childrenOfKind kinds).map outline := by
  have hkind : (fun child : Node => decide (child.kind ∈ kinds)) ∘ outline =
      fun child => decide (child.kind ∈ kinds) := by
    funext child
    rw [Function.comp_apply, kind_outline]
  rw [childrenOfKind, namedChildren_innerOutline, List.filter_map, hkind, childrenOfKind]

theorem opensScope_outline (node : Node) : node.outline.opensScope = node.opensScope := by
  rw [opensScope, opensScope, kind_outline]

theorem patternStep_of_opensScope (h : node.opensScope = true) : node.patternStep = .into [] := by
  have hkind : node.kind ∈ scopeKinds := by simpa [opensScope] using h
  unfold patternStep
  split
  all_goals first
    | rfl
    | next heq => exact absurd (heq ▸ hkind) (by decide)

theorem patternStep_innerOutline (node : Node) : node.innerOutline.patternStep =
    match node.patternStep with
    | .name => .name
    | .into children => .into (children.map outline) := by
  have hkind : node.innerOutline.kind = node.kind := rfl
  simp only [patternStep, hkind, field?_innerOutline, namedChildren_innerOutline, List.head?_map,
    Option.toList_map]
  split <;> rfl

/-- What a pattern binds is not told below functions and classes. -/
theorem boundNames_outline (node : Node) : node.outline.boundNames source = node.boundNames source := by
  cases hscope : node.opensScope with
  | true =>
      have houtline := (opensScope_outline node).trans hscope
      rw [boundNames_of_into (patternStep_of_opensScope hscope),
        boundNames_of_into (patternStep_of_opensScope houtline)]
  | false =>
      have hinner := patternStep_innerOutline node
      rw [outline_of_not_opensScope hscope]
      cases hstep : node.patternStep with
      | name =>
          rw [hstep] at hinner
          rw [boundNames_of_name hstep, boundNames_of_name hinner]
          rfl
      | into children =>
          rw [hstep] at hinner
          rw [boundNames_of_into hstep, boundNames_of_into hinner, List.flatMap_map]
          exact List.flatMap_congr fun child hchild => boundNames_outline child
termination_by node
decreasing_by exact sizeOf_child (mem_children_of_patternStep hstep hchild)

theorem typeText?_outline (node : Node) : node.outline.typeText? source = node.typeText? source := by
  rw [typeText?, typeText?, kind_outline, text_outline]
  split
  next hkind =>
    have hapart : ∀ kind ∈ annotatingKinds, kind ∉ scopeKinds := by decide
    have hscope : node.opensScope = false := decide_eq_false (hapart _ hkind)
    rw [outline_of_not_opensScope hscope, namedChildren_innerOutline, List.head?_map, Option.map_map]
    congr 1
    funext child
    exact text_outline source child
  next => rfl

theorem fieldType?_innerOutline (node : Node) (field : String) :
    node.innerOutline.fieldType? source field = node.fieldType? source field := by
  rw [fieldType?, fieldType?, field?_innerOutline, Option.bind_map]
  congr 1
  funext child
  exact typeText?_outline child

theorem declaratorVariables_innerOutline {exported isConst : Bool} {scope : VariableScope} (node : Node) :
    node.innerOutline.declaratorVariables source exported isConst scope =
      node.declaratorVariables source exported isConst scope := by
  rw [declaratorVariables, declaratorVariables, field?_innerOutline, fieldType?_innerOutline]
  cases node.field? "name" with
  | none => rfl
  | some pattern =>
      simp only [Option.map_some, boundNames_outline, kind_outline]
      rfl

theorem declaredVariables_innerOutline {exported : Bool} {scope : VariableScope} (node : Node) :
    node.innerOutline.declaredVariables source exported scope =
      node.declaredVariables source exported scope := by
  simp only [declaredVariables, field?_innerOutline, Option.any_map, text_outline,
    childrenOfKind_innerOutline, List.flatMap_map]
  apply List.flatMap_congr
  intro declarator hdeclarator
  have hscope : declarator.opensScope = false := by
    have hkind : declarator.kind = "variable_declarator" := by
      simpa using (List.mem_filter.mp hdeclarator).2
    rw [opensScope, hkind]
    decide
  rw [outline_of_not_opensScope hscope, declaratorVariables_innerOutline]

theorem variablesBelow_innerOutline (node : Node) :
    node.innerOutline.variablesBelow source = node.variablesBelow source := by
  rw [variablesBelow_eq, variablesBelow_eq source node, namedChildren_innerOutline, List.flatMap_map]
  apply List.flatMap_congr
  intro child hchild
  rw [kind_outline, opensScope_outline]
  cases hscope : child.opensScope with
  | true =>
      have hkinds : ∀ kind ∈ scopeKinds, kind ≠ "variable_declaration" ∧ kind ≠ "lexical_declaration" := by
        decide
      obtain ⟨hvar, hlexical⟩ := hkinds _ (of_decide_eq_true hscope)
      rw [if_neg hvar, if_neg hlexical, if_neg hvar, if_neg hlexical]
      rfl
  | false =>
      rw [outline_of_not_opensScope hscope, declaredVariables_innerOutline, declaredVariables_innerOutline,
        variablesBelow_innerOutline]
termination_by node
decreasing_by exact sizeOf_child (List.mem_filter.mp hchild).1

/-- Bodies with the same outline declare the same variables. -/
theorem bodyVariables_congr {other : Node}
    (h : (other.field? "body").map innerOutline = (node.field? "body").map innerOutline) :
    other.bodyVariables source = node.bodyVariables source := by
  have hoptional : ∀ node : Node, node.bodyVariables source =
      (((node.field? "body").map innerOutline).map (variablesBelow source)).getD [] := by
    intro node
    rw [bodyVariables, Option.map_map]
    cases node.field? "body" with
    | none => rfl
    | some body => exact (variablesBelow_innerOutline body).symm
  rw [hoptional, h, ← hoptional]

end Node

end ExportIndex
