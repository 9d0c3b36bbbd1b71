import ExportIndex.Declaration
import ExportIndex.Document

/-!
# Reading constructs

What the nodes of the TypeScript grammar say about the constructs they stand for: modifiers,
visibility, types, type parameters, scopes, and which identifiers declare a name.
-/

namespace ExportIndex

/-- The kinds of construct whose `name` field declares a name. -/
def namingKinds : List String :=
  ["class_declaration", "abstract_class_declaration", "class", "interface_declaration",
    "type_alias_declaration", "enum_declaration", "function_declaration",
    "generator_function_declaration", "function_signature", "function_expression",
    "generator_function", "internal_module", "module", "type_parameter"]

/-- The kinds of construct that open a function or class scope. -/
def scopeKinds : List String :=
  ["function_declaration", "generator_function_declaration", "function_expression", "function",
    "generator_function", "arrow_function", "method_definition", "class_declaration",
    "abstract_class_declaration", "class"]

/-- The kinds of construct that hold a type behind a colon or a similar mark. -/
def annotatingKinds : List String :=
  ["type_annotation", "type_predicate_annotation", "asserts_annotation",
    "omitting_type_annotation", "adding_type_annotation", "opting_type_annotation"]

namespace Node

def opensScope (node : Node) : Bool := node.kind ∈ scopeKinds

/-- The keywords and marks before the name of a construct. -/
def modifiers (node : Node) : List String :=
  ((node.children.takeWhile fun child => !child.inField "name").filter (!·.named)).map (·.kind)

/-- Who may use a member: a name that starts with `#` is for its own class alone, and else the
accessibility modifier decides. -/
def visibility (source : String) (node : Node) : Visibility :=
  if (node.field? "name").any fun name => name.kind = "private_property_identifier" then .ownClass
  else
    match (node.childOfKind? "accessibility_modifier").map (text source) with
    | some "private" => .ownClass
    | some "protected" => .subclasses
    | _ => .everyone

/-- The text of a type, without the mark in front of it. -/
def typeText? (source : String) (node : Node) : Option String :=
  if node.kind ∈ annotatingKinds then node.namedChildren.head?.map (text source)
  else some (node.text source)

def fieldType? (source : String) (node : Node) (field : String) : Option String :=
  (node.field? field).bind (typeText? source)

def typeParameters (source : String) (node : Node) : List String :=
  match node.field? "type_parameters" with
  | some list => (list.childrenOfKind ["type_parameter"]).filterMap (fieldText? source · "name")
  | none => []

end Node

namespace Site

/-- Whether a node with some nodes above it is the name, or a part of the dotted name, of a
declaration. -/
def declaresName (node : Node) : List Node → Bool
  | [] => false
  | parent :: above =>
    if parent.kind = "nested_identifier" then declaresName parent above
    else parent.kind ∈ namingKinds && node.inField "name"

/-- Whether a site is the name, or a part of the dotted name, of a declaration. -/
def isDeclaredName (site : Site) : Bool := declaresName site.node site.ancestors

/-- Whether a site is the `B` of a qualified type `A.B`. -/
def isQualifiedMember (site : Site) : Bool :=
  site.parent?.any fun parent =>
    parent.kind = "nested_type_identifier" && site.node.inField "name"

/-- Whether some node above a site has one of some kinds. -/
def isBelow (site : Site) (kinds : List String) : Bool :=
  site.ancestors.any fun node => node.kind ∈ kinds

end Site

end ExportIndex
