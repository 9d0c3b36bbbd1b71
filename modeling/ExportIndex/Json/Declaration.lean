import ExportIndex.Declaration
import ExportIndex.Json.Record

/-!
# Declarations as JSON

Each declaration is a tagged record. Optional parts are left out when absent, and may be absent or
null when read. Fields that the model does not know are passed over.
-/

namespace ExportIndex

/-- A span as an object with the fields `start` and `end`. -/
def Span.toJson (s : Span) : Json :=
  .object [("start", .natural s.start), ("end", .natural s.stop)]

def Span.ofJson? (j : Json) : Option Span := do
  let record ← j.record? ["start", "end"]
  let start ← record.required? "start" Json.natural?
  let stop ← record.required? "end" Json.natural?
  return ⟨start, stop⟩

def Visibility.word : Visibility → String
  | ownClass => "private"
  | subclasses => "protected"
  | everyone => "public"

def Visibility.ofWord? : String → Option Visibility
  | "private" => some ownClass
  | "protected" => some subclasses
  | "public" => some everyone
  | _ => none

def Visibility.ofJson? (j : Json) : Option Visibility := (j.word? .inside).bind ofWord?

def VariableScope.word : VariableScope → String
  | topLevel => "module"
  | functionBody => "function"
  | block => "block"

def VariableScope.ofWord? : String → Option VariableScope
  | "module" => some topLevel
  | "function" => some functionBody
  | "block" => some block
  | _ => none

def VariableScope.ofJson? (j : Json) : Option VariableScope := (j.word? .inside).bind ofWord?

def AccessorKind.word : AccessorKind → String
  | getter => "get"
  | setter => "set"

def AccessorKind.ofWord? : String → Option AccessorKind
  | "get" => some getter
  | "set" => some setter
  | _ => none

def AccessorKind.ofJson? (j : Json) : Option AccessorKind := (j.word? .inside).bind ofWord?

def Parameter.toJson (p : Parameter) : Json :=
  .ofFields
    [("name", some (.text p.name)),
      ("type", p.type?.map .text),
      ("has_default", some (.bool p.hasDefault)),
      ("is_optional", some (.bool p.isOptional)),
      ("is_rest", some (.bool p.isRest)),
      ("location", some p.span.toJson)]

def Parameter.ofJson? (j : Json) : Option Parameter := do
  let record ← j.record? ["name", "type", "has_default", "is_optional", "is_rest", "location"]
  let name ← record.required? "name" Json.text?
  let type? ← record.optional? "type" Json.text?
  let hasDefault ← record.required? "has_default" Json.bool?
  let isOptional ← record.required? "is_optional" Json.bool?
  let isRest ← record.required? "is_rest" Json.bool?
  let span ← record.required? "location" Span.ofJson?
  return { name, type?, hasDefault, isOptional, isRest, span }

def VariableDeclaration.fields (v : VariableDeclaration) : List (String × Option Json) :=
  [("name", some (.text v.name)),
    ("exported", some (.bool v.exported)),
    ("is_const", some (.bool v.isConst)),
    ("scope", some (.text v.scope.word)),
    ("type", v.type?.map .text),
    ("location", some v.span.toJson)]

def VariableDeclaration.toJson (v : VariableDeclaration) : Json := .ofFields v.fields

def VariableDeclaration.ofJson? (j : Json) : Option VariableDeclaration := do
  let record ← j.record? ["name", "exported", "is_const", "scope", "type", "location"]
  let name ← record.required? "name" Json.text?
  let exported ← record.required? "exported" Json.bool?
  let isConst ← record.required? "is_const" Json.bool?
  let scope ← record.required? "scope" VariableScope.ofJson?
  let type? ← record.optional? "type" Json.text?
  let span ← record.required? "location" Span.ofJson?
  return { name, exported, isConst, scope, type?, span }

def Property.toJson (p : Property) : Json :=
  .ofFields
    [("name", some (.text p.name)),
      ("visibility", some (.text p.visibility.word)),
      ("type", p.type?.map .text),
      ("is_static", some (.bool p.isStatic)),
      ("is_optional", some (.bool p.isOptional)),
      ("is_readonly", some (.bool p.isReadonly)),
      ("location", some p.span.toJson)]

def Property.ofJson? (j : Json) : Option Property := do
  let record ← j.record?
    ["name", "visibility", "type", "is_static", "is_optional", "is_readonly", "location"]
  let name ← record.required? "name" Json.text?
  let visibility ← record.required? "visibility" Visibility.ofJson?
  let type? ← record.optional? "type" Json.text?
  let isStatic ← record.required? "is_static" Json.bool?
  let isOptional ← record.required? "is_optional" Json.bool?
  let isReadonly ← record.required? "is_readonly" Json.bool?
  let span ← record.required? "location" Span.ofJson?
  return { name, visibility, type?, isStatic, isOptional, isReadonly, span }

def Method.toJson (m : Method) : Json :=
  .ofFields
    [("name", some (.text m.name)),
      ("visibility", some (.text m.visibility.word)),
      ("parameters", some (.array (m.parameters.map Parameter.toJson))),
      ("type", m.type?.map .text),
      ("is_abstract", some (.bool m.isAbstract)),
      ("is_static", some (.bool m.isStatic)),
      ("is_async", some (.bool m.isAsync)),
      ("is_optional", some (.bool m.isOptional)),
      ("variables", some (.array (m.locals.map VariableDeclaration.toJson))),
      ("location", some m.span.toJson)]

def Method.ofJson? (j : Json) : Option Method := do
  let record ← j.record?
    ["name", "visibility", "parameters", "type", "is_abstract", "is_static", "is_async",
      "is_optional", "variables", "location"]
  let name ← record.required? "name" Json.text?
  let visibility ← record.required? "visibility" Visibility.ofJson?
  let parameters ← record.required? "parameters" (Json.list? Parameter.ofJson?)
  let type? ← record.optional? "type" Json.text?
  let isAbstract ← record.required? "is_abstract" Json.bool?
  let isStatic ← record.required? "is_static" Json.bool?
  let isAsync ← record.required? "is_async" Json.bool?
  let isOptional ← record.required? "is_optional" Json.bool?
  let locals ← record.required? "variables" (Json.list? VariableDeclaration.ofJson?)
  let span ← record.required? "location" Span.ofJson?
  return { name, visibility, parameters, type?, isAbstract, isStatic, isAsync, isOptional,
           locals, span }

def Accessor.toJson (a : Accessor) : Json :=
  .ofFields
    [("name", some (.text a.name)),
      ("kind", some (.text a.kind.word)),
      ("visibility", some (.text a.visibility.word)),
      ("type", a.type?.map .text),
      ("is_static", some (.bool a.isStatic)),
      ("is_abstract", some (.bool a.isAbstract)),
      ("location", some a.span.toJson)]

def Accessor.ofJson? (j : Json) : Option Accessor := do
  let record ← j.record?
    ["name", "kind", "visibility", "type", "is_static", "is_abstract", "location"]
  let name ← record.required? "name" Json.text?
  let kind ← record.required? "kind" AccessorKind.ofJson?
  let visibility ← record.required? "visibility" Visibility.ofJson?
  let type? ← record.optional? "type" Json.text?
  let isStatic ← record.required? "is_static" Json.bool?
  let isAbstract ← record.required? "is_abstract" Json.bool?
  let span ← record.required? "location" Span.ofJson?
  return { name, kind, visibility, type?, isStatic, isAbstract, span }

def Constructor.toJson (c : Constructor) : Json :=
  .ofFields
    [("parameters", some (.array (c.parameters.map Parameter.toJson))),
      ("variables", some (.array (c.locals.map VariableDeclaration.toJson))),
      ("location", some c.span.toJson)]

def Constructor.ofJson? (j : Json) : Option Constructor := do
  let record ← j.record? ["parameters", "variables", "location"]
  let parameters ← record.required? "parameters" (Json.list? Parameter.ofJson?)
  let locals ← record.required? "variables" (Json.list? VariableDeclaration.ofJson?)
  let span ← record.required? "location" Span.ofJson?
  return { parameters, locals, span }

def ClassDeclaration.fields (c : ClassDeclaration) : List (String × Option Json) :=
  [("name", some (.text c.name)),
    ("exported", some (.bool c.exported)),
    ("is_abstract", some (.bool c.isAbstract)),
    ("type_parameters", some (.ofTexts c.typeParameters)),
    ("ctor", c.constructor?.map Constructor.toJson),
    ("methods", some (.array (c.methods.map Method.toJson))),
    ("properties", some (.array (c.properties.map Property.toJson))),
    ("accessors", some (.array (c.accessors.map Accessor.toJson))),
    ("location", some c.span.toJson)]

def ClassDeclaration.ofJson? (j : Json) : Option ClassDeclaration := do
  let record ← j.record?
    ["name", "exported", "is_abstract", "type_parameters", "ctor", "methods", "properties",
      "accessors", "location"]
  let name ← record.required? "name" Json.text?
  let exported ← record.required? "exported" Json.bool?
  let isAbstract ← record.required? "is_abstract" Json.bool?
  let typeParameters ← record.required? "type_parameters" (Json.list? Json.text?)
  let constructor? ← record.optional? "ctor" Constructor.ofJson?
  let methods ← record.required? "methods" (Json.list? Method.ofJson?)
  let properties ← record.required? "properties" (Json.list? Property.ofJson?)
  let accessors ← record.required? "accessors" (Json.list? Accessor.ofJson?)
  let span ← record.required? "location" Span.ofJson?
  return { name, exported, isAbstract, typeParameters, constructor?, methods, properties,
           accessors, span }

def InterfaceDeclaration.fields (i : InterfaceDeclaration) : List (String × Option Json) :=
  [("name", some (.text i.name)),
    ("exported", some (.bool i.exported)),
    ("type_parameters", some (.ofTexts i.typeParameters)),
    ("methods", some (.array (i.methods.map Method.toJson))),
    ("properties", some (.array (i.properties.map Property.toJson))),
    ("location", some i.span.toJson)]

def InterfaceDeclaration.ofJson? (j : Json) : Option InterfaceDeclaration := do
  let record ← j.record?
    ["name", "exported", "type_parameters", "methods", "properties", "location"]
  let name ← record.required? "name" Json.text?
  let exported ← record.required? "exported" Json.bool?
  let typeParameters ← record.required? "type_parameters" (Json.list? Json.text?)
  let methods ← record.required? "methods" (Json.list? Method.ofJson?)
  let properties ← record.required? "properties" (Json.list? Property.ofJson?)
  let span ← record.required? "location" Span.ofJson?
  return { name, exported, typeParameters, methods, properties, span }

def EnumDeclaration.fields (e : EnumDeclaration) : List (String × Option Json) :=
  [("name", some (.text e.name)),
    ("exported", some (.bool e.exported)),
    ("is_const", some (.bool e.isConst)),
    ("members", some (.ofTexts e.members)),
    ("location", some e.span.toJson)]

def EnumDeclaration.ofJson? (j : Json) : Option EnumDeclaration := do
  let record ← j.record? ["name", "exported", "is_const", "members", "location"]
  let name ← record.required? "name" Json.text?
  let exported ← record.required? "exported" Json.bool?
  let isConst ← record.required? "is_const" Json.bool?
  let members ← record.required? "members" (Json.list? Json.text?)
  let span ← record.required? "location" Span.ofJson?
  return { name, exported, isConst, members, span }

def FunctionDeclaration.fields (f : FunctionDeclaration) : List (String × Option Json) :=
  [("name", some (.text f.name)),
    ("exported", some (.bool f.exported)),
    ("is_async", some (.bool f.isAsync)),
    ("type_parameters", some (.ofTexts f.typeParameters)),
    ("parameters", some (.array (f.parameters.map Parameter.toJson))),
    ("variables", some (.array (f.locals.map VariableDeclaration.toJson))),
    ("type", f.type?.map .text),
    ("location", some f.span.toJson)]

def FunctionDeclaration.ofJson? (j : Json) : Option FunctionDeclaration := do
  let record ← j.record?
    ["name", "exported", "is_async", "type_parameters", "parameters", "variables", "type",
      "location"]
  let name ← record.required? "name" Json.text?
  let exported ← record.required? "exported" Json.bool?
  let isAsync ← record.required? "is_async" Json.bool?
  let typeParameters ← record.required? "type_parameters" (Json.list? Json.text?)
  let parameters ← record.required? "parameters" (Json.list? Parameter.ofJson?)
  let locals ← record.required? "variables" (Json.list? VariableDeclaration.ofJson?)
  let type? ← record.optional? "type" Json.text?
  let span ← record.required? "location" Span.ofJson?
  return { name, exported, isAsync, typeParameters, parameters, locals, type?, span }

def TypeAliasDeclaration.fields (t : TypeAliasDeclaration) : List (String × Option Json) :=
  [("name", some (.text t.name)),
    ("exported", some (.bool t.exported)),
    ("type_parameters", some (.ofTexts t.typeParameters)),
    ("type", t.type?.map .text),
    ("location", some t.span.toJson)]

def TypeAliasDeclaration.ofJson? (j : Json) : Option TypeAliasDeclaration := do
  let record ← j.record? ["name", "exported", "type_parameters", "type", "location"]
  let name ← record.required? "name" Json.text?
  let exported ← record.required? "exported" Json.bool?
  let typeParameters ← record.required? "type_parameters" (Json.list? Json.text?)
  let type? ← record.optional? "type" Json.text?
  let span ← record.required? "location" Span.ofJson?
  return { name, exported, typeParameters, type?, span }

def ModuleDeclaration.fields (m : ModuleDeclaration) : List (String × Option Json) :=
  [("name", some (.text m.name)),
    ("exported", some (.bool m.exported)),
    ("target", some (.text m.target)),
    ("location", some m.span.toJson)]

def ModuleDeclaration.ofJson? (j : Json) : Option ModuleDeclaration := do
  let record ← j.record? ["name", "exported", "target", "location"]
  let name ← record.required? "name" Json.text?
  let exported ← record.required? "exported" Json.bool?
  let target ← record.required? "target" Json.text?
  let span ← record.required? "location" Span.ofJson?
  return { name, exported, target, span }

namespace Declaration

/-- The fields of a declaration, apart from its kind. -/
def fields : Declaration → List (String × Option Json)
  | ofClass d => d.fields
  | ofInterface d => d.fields
  | ofEnum d => d.fields
  | ofFunction d => d.fields
  | ofVariable d => d.fields
  | ofTypeAlias d => d.fields
  | ofModule d => d.fields
  | defaultValue name? span =>
    [("name", name?.map .text), ("declaration", none), ("location", some span.toJson)]
  | defaultWrapping name? inner span =>
    [("name", name?.map .text),
      ("declaration", some (.ofFields (("kind", some (.text inner.kindName)) :: inner.fields))),
      ("location", some span.toJson)]

def toJson (d : Declaration) : Json :=
  .ofFields (("kind", some (.text d.kindName)) :: d.fields)

/-- The kinds of declaration, in the order in which positions stand for them. -/
def kindNames : List String :=
  ["class", "interface", "enum", "function", "variable", "type_alias", "default", "module"]

/-- Read a declaration of a kind other than a default export. -/
def ofKind? (kind : String) (content : Json) : Option Declaration :=
  match kind with
  | "class" => (ClassDeclaration.ofJson? content).map ofClass
  | "interface" => (InterfaceDeclaration.ofJson? content).map ofInterface
  | "enum" => (EnumDeclaration.ofJson? content).map ofEnum
  | "function" => (FunctionDeclaration.ofJson? content).map ofFunction
  | "variable" => (VariableDeclaration.ofJson? content).map ofVariable
  | "type_alias" => (TypeAliasDeclaration.ofJson? content).map ofTypeAlias
  | "module" => (ModuleDeclaration.ofJson? content).map ofModule
  | _ => none

def defaultFields : List String := ["name", "declaration", "location"]

/-- Read a declaration. What a default export wraps stands inside it. -/
def read? (place : Json.Place) (j : Json) : Option Declaration :=
  match _htagged : j.tagged? with
  | none => none
  | some (tag, content) =>
    match tag.tag? place kindNames with
    | none => none
    | some "default" =>
      match _hrecord : content.record? defaultFields with
      | none => none
      | some record => do
        let name? ← record.optional? "name" Json.text?
        let span ← record.required? "location" Span.ofJson?
        match _hinner : record.get? "declaration" with
        | none | some .null => return defaultValue name? span
        | some inner => return defaultWrapping name? (← read? .inside inner) span
    | some kind => ofKind? kind content
termination_by j
decreasing_by
  exact Nat.lt_of_lt_of_le (Json.sizeOf_of_get?_record? _hrecord _hinner)
    (Json.sizeOf_of_tagged? _htagged)

/-- Read a declaration that stands by itself or in a resource. -/
def ofJson? (j : Json) : Option Declaration := read? .outside j

end Declaration

end ExportIndex
