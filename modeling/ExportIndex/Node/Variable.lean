import ExportIndex.Node.Construct

/-!
# Parameters and variables

The names that parameters, declarators and destructuring patterns bind, and the local variables of
a function body.
-/

namespace ExportIndex

namespace Node

def parameterNodes (node : Node) : List Node :=
  match node.field? "parameters" with
  | some list => list.childrenOfKind ["required_parameter", "optional_parameter"]
  | none => []

/-- The name that a parameter's pattern gives it: the text of the pattern, without the dots of a
rest parameter. -/
def patternName (source : String) (pattern : Node) : String :=
  if pattern.kind = "rest_pattern" then
    ((pattern.namedChildren.head?).map (text source)).getD ""
  else pattern.text source

def toParameter (source : String) (node : Node) : Parameter where
  name := ((node.field? "pattern").map (patternName source)).getD ""
  type? := node.fieldType? source "type"
  hasDefault := (node.field? "value").isSome
  isOptional := node.kind = "optional_parameter"
  isRest := (node.field? "pattern").any fun pattern => pattern.kind = "rest_pattern"
  span := node.span

def parameters (source : String) (node : Node) : List Parameter :=
  node.parameterNodes.map (toParameter source)

/-- The way on from a pattern to the patterns in it that bind its names. -/
inductive PatternStep where
  | name
  /-- The names are those of some children. -/
  | into (children : List Node)

/-- How a pattern binds: as a name, or through the patterns in it. Keys and default values bind
nothing. -/
def patternStep (pattern : Node) : PatternStep :=
  match pattern.kind with
  | "identifier" | "shorthand_property_identifier_pattern" => .name
  | "pair_pattern" => .into (pattern.field? "value").toList
  | "object_assignment_pattern" | "assignment_pattern" => .into (pattern.field? "left").toList
  | "rest_pattern" => .into pattern.namedChildren.head?.toList
  | "object_pattern" | "array_pattern" => .into pattern.namedChildren
  | _ => .into []

theorem mem_children_of_patternStep {pattern child : Node} {children : List Node}
    (hstep : pattern.patternStep = .into children) (h : child ∈ children) :
    child ∈ pattern.children := by
  unfold patternStep at hstep
  split at hstep
  all_goals try cases hstep
  · exact List.mem_of_find?_eq_some (Option.mem_toList.mp h)
  · exact List.mem_of_find?_eq_some (Option.mem_toList.mp h)
  · exact List.mem_of_find?_eq_some (Option.mem_toList.mp h)
  · exact (List.mem_filter.mp (List.mem_of_mem_head? (Option.mem_toList.mp h))).1
  · exact (List.mem_filter.mp h).1
  · exact (List.mem_filter.mp h).1
  · cases h

/-- The names that a pattern binds, in source order. -/
def boundNames (source : String) (pattern : Node) : List String :=
  match _h : pattern.patternStep with
  | .name => [pattern.text source]
  | .into children => children.attach.flatMap fun child => boundNames source child.1
termination_by pattern
decreasing_by exact sizeOf_child (mem_children_of_patternStep _h child.2)

/-- The variables that one declarator declares. Only a plain name takes the declared type. -/
def declaratorVariables (source : String) (exported isConst : Bool) (scope : VariableScope)
    (declarator : Node) : List VariableDeclaration :=
  match declarator.field? "name" with
  | none => []
  | some pattern =>
    (pattern.boundNames source).map fun name =>
      { name, exported, isConst, scope
        type? := if pattern.kind = "identifier" then declarator.fieldType? source "type" else none
        span := declarator.span }

/-- The variables that a `var`, `let` or `const` statement declares. -/
def declaredVariables (source : String) (exported : Bool) (scope : VariableScope) (node : Node) :
    List VariableDeclaration :=
  let isConst := (node.field? "kind").any fun keyword => keyword.text source = "const"
  (node.childrenOfKind ["variable_declarator"]).flatMap
    (declaratorVariables source exported isConst scope)

/-- The variables that are declared below a node, outside inner functions and classes. -/
def variablesBelow (source : String) (node : Node) : List VariableDeclaration :=
  node.namedChildren.attach.flatMap fun ⟨child, _⟩ =>
    if child.kind = "variable_declaration" then child.declaredVariables source false .functionBody
    else if child.kind = "lexical_declaration" then child.declaredVariables source false .block
    else if child.opensScope then []
    else variablesBelow source child
termination_by node
decreasing_by exact sizeOf_child (List.mem_filter.mp ‹_›).1

def bodyVariables (source : String) (node : Node) : List VariableDeclaration :=
  match node.field? "body" with
  | some body => body.variablesBelow source
  | none => []

end Node

end ExportIndex
