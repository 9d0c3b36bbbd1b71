import ExportIndex.Node.Variable

/-!
# Classes and interfaces

The members of class and interface bodies. Method overloads share a name, and the first of them
stands for all.
-/

namespace ExportIndex

/-- The name given to a declaration that has none of its own. -/
def anonymousName : String := "default"

namespace Node

def declaredName (source : String) (node : Node) : String :=
  (node.fieldText? source "name").getD anonymousName

def memberName (source : String) (node : Node) : String :=
  (node.fieldText? source "name").getD ""

def isAbstractMember (node : Node) : Bool :=
  node.kind = "abstract_method_signature" || node.modifiers.contains "abstract"

def toMethod (source : String) (node : Node) : Method where
  name := node.memberName source
  visibility := node.visibility source
  parameters := node.parameters source
  type? := node.fieldType? source "return_type"
  isAbstract := node.isAbstractMember
  isStatic := node.modifiers.contains "static"
  isAsync := node.modifiers.contains "async"
  isOptional := node.hasToken "?"
  locals := node.bodyVariables source
  span := node.span

def isAccessor (node : Node) : Bool :=
  node.modifiers.contains "get" || node.modifiers.contains "set"

/-- The accessor that a member declares. A getter has its return type, and a setter the type of its
first parameter. -/
def toAccessor (source : String) (node : Node) : Accessor where
  name := node.memberName source
  kind := if node.modifiers.contains "get" then .getter else .setter
  visibility := node.visibility source
  type? :=
    if node.modifiers.contains "get" then node.fieldType? source "return_type"
    else node.parameterNodes.head?.bind fun parameter => parameter.fieldType? source "type"
  isStatic := node.modifiers.contains "static"
  isAbstract := node.isAbstractMember
  span := node.span

def toProperty (source : String) (node : Node) : Property where
  name := node.memberName source
  visibility := node.visibility source
  type? := node.fieldType? source "type"
  isStatic := node.modifiers.contains "static"
  isOptional := node.hasToken "?"
  isReadonly := node.modifiers.contains "readonly"
  span := node.span

/-- Whether a constructor parameter declares a property as well. -/
def promotesProperty (parameter : Node) : Bool :=
  (parameter.childOfKind? "accessibility_modifier").isSome || parameter.hasToken "readonly"

/-- The properties that the parameters of a constructor declare. -/
def promotedProperties (source : String) (node : Node) : List Property :=
  (node.parameterNodes.filter promotesProperty).filterMap fun parameter =>
    (parameter.field? "pattern").map fun pattern =>
      { name := pattern.text source
        visibility := parameter.visibility source
        type? := parameter.fieldType? source "type"
        isStatic := false
        isOptional := parameter.kind = "optional_parameter"
        isReadonly := parameter.hasToken "readonly"
        span := parameter.span }

def toConstructor (source : String) (node : Node) : Constructor where
  parameters := node.parameters source
  locals := node.bodyVariables source
  span := node.span

/-- The kinds of class member that may be methods. -/
def methodKinds : List String :=
  ["method_definition", "method_signature", "abstract_method_signature"]

end Node

/-- Methods in source order, with a method added unless one of its name is there. -/
def addMethod (methods : List Method) (method : Method) : List Method :=
  if methods.any fun other => other.name = method.name then methods else methods ++ [method]

namespace ClassDeclaration

/-- Take a constructor into a class: the first signature counts until a definition comes, and the
last definition wins. -/
def addConstructor (source : String) (c : ClassDeclaration) (member : Node) : ClassDeclaration :=
  if c.constructor?.isNone || member.kind = "method_definition" then
    { c with
      properties := c.properties ++ member.promotedProperties source
      constructor? := some (member.toConstructor source) }
  else c

/-- Take a member of the class body into a class. -/
def addMember (source : String) (c : ClassDeclaration) (member : Node) : ClassDeclaration :=
  if member.kind ∈ Node.methodKinds then
    if member.memberName source = "constructor" then c.addConstructor source member
    else if member.isAccessor then { c with accessors := c.accessors ++ [member.toAccessor source] }
    else { c with methods := addMethod c.methods (member.toMethod source) }
  else if member.kind = "public_field_definition" then
    { c with properties := c.properties ++ [member.toProperty source] }
  else c

end ClassDeclaration

namespace InterfaceDeclaration

/-- Take a member of the interface body into an interface. -/
def addMember (source : String) (i : InterfaceDeclaration) (member : Node) : InterfaceDeclaration :=
  if member.kind = "property_signature" then
    { i with properties := i.properties ++ [member.toProperty source] }
  else { i with methods := addMethod i.methods (member.toMethod source) }

end InterfaceDeclaration

namespace Node

def toClass (source : String) (exported : Bool) (node : Node) : ClassDeclaration :=
  let header : ClassDeclaration :=
    { name := node.declaredName source
      exported
      isAbstract := node.kind = "abstract_class_declaration"
      typeParameters := node.typeParameters source
      constructor? := none
      methods := []
      properties := []
      accessors := []
      span := node.span }
  match node.field? "body" with
  | some body => body.namedChildren.foldl (ClassDeclaration.addMember source) header
  | none => header

def toInterface (source : String) (exported : Bool) (node : Node) : InterfaceDeclaration :=
  let header : InterfaceDeclaration :=
    { name := node.declaredName source
      exported
      typeParameters := node.typeParameters source
      methods := []
      properties := []
      span := node.span }
  match node.field? "body" with
  | some body =>
    (body.childrenOfKind ["property_signature", "method_signature"]).foldl
      (InterfaceDeclaration.addMember source) header
  | none => header

end Node

end ExportIndex
