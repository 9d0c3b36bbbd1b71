import ExportIndex.Node.Member

/-!
# Declaring statements

The declarations that one statement or expression introduces.
-/

namespace ExportIndex

namespace Node

/-- The name of an enum member: what stands before the equals sign, or all of it. -/
def enumMemberName? (source : String) (member : Node) : Option String :=
  if member.kind = "enum_assignment" then member.fieldText? source "name"
  else some (Text.unquote (member.text source))

def enumMembers (source : String) (node : Node) : List String :=
  match node.field? "body" with
  | some body =>
    (body.namedChildren.filter fun member => member.kind ≠ "comment").filterMap
      (enumMemberName? source)
  | none => []

def toEnum (source : String) (exported : Bool) (node : Node) : EnumDeclaration where
  name := node.declaredName source
  exported := exported
  isConst := node.hasToken "const"
  members := node.enumMembers source
  span := node.span

def toTypeAlias (source : String) (exported : Bool) (node : Node) : TypeAliasDeclaration where
  name := node.declaredName source
  exported := exported
  typeParameters := node.typeParameters source
  type? := (node.field? "value").map (text source)
  span := node.span

def toFunction (source : String) (exported : Bool) (node : Node) : FunctionDeclaration where
  name := node.declaredName source
  exported := exported
  isAsync := node.hasToken "async"
  typeParameters := node.typeParameters source
  parameters := node.parameters source
  locals := node.bodyVariables source
  type? := node.fieldType? source "return_type"
  span := node.span

/-- The declarations that a construct introduces. Other constructs introduce none. -/
def declarations (source : String) (exported : Bool) (node : Node) : List Declaration :=
  match node.kind with
  | "class_declaration" | "abstract_class_declaration" | "class" =>
    [.ofClass (node.toClass source exported)]
  | "interface_declaration" => [.ofInterface (node.toInterface source exported)]
  | "enum_declaration" => [.ofEnum (node.toEnum source exported)]
  | "type_alias_declaration" => [.ofTypeAlias (node.toTypeAlias source exported)]
  | "function_declaration" | "generator_function_declaration" | "function_signature"
  | "function_expression" | "function" | "generator_function" =>
    [.ofFunction (node.toFunction source exported)]
  | "lexical_declaration" | "variable_declaration" =>
    (node.declaredVariables source exported .topLevel).map .ofVariable
  | _ => []

end Node

/-- The default export that wraps a declaration, under the name of that declaration if it has one
of its own. -/
def Declaration.wrapDefault (inner : Declaration) (span : Span) : Declaration :=
  .defaultWrapping (inner.name?.filter (· ≠ anonymousName)) inner span

/-- The default export of a construct: it wraps the first declaration that the construct
introduces, and else stands for a nameless value. -/
def Node.defaultExport (source : String) (span : Span) (node : Node) : Declaration :=
  match node.declarations source false with
  | inner :: _ => inner.wrapDefault span
  | [] => .defaultValue none span

end ExportIndex
