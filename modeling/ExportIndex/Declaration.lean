import ExportIndex.Span

/-!
# Declarations

What a source file declares: classes, interfaces, enums, functions, variables, type aliases, its
default export, and names that stand for whole modules. Types are kept as their source text.
-/

namespace ExportIndex

/-- Who may use a class member. -/
inductive Visibility where
  | ownClass
  | subclasses
  | everyone
  deriving DecidableEq

/-- Where a variable is declared. -/
inductive VariableScope where
  /-- At the top of a file or namespace. -/
  | topLevel
  /-- Anywhere in a function body, by `var`. -/
  | functionBody
  /-- In a block, by `let` or `const`. -/
  | block
  deriving DecidableEq

/-- Whether an accessor reads or writes. -/
inductive AccessorKind where
  | getter
  | setter
  deriving DecidableEq

structure Parameter where
  name : String
  type? : Option String
  hasDefault : Bool
  isOptional : Bool
  isRest : Bool
  span : Span
  deriving DecidableEq

structure VariableDeclaration where
  name : String
  exported : Bool
  isConst : Bool
  scope : VariableScope
  type? : Option String
  span : Span
  deriving DecidableEq

structure Property where
  name : String
  visibility : Visibility
  type? : Option String
  isStatic : Bool
  isOptional : Bool
  isReadonly : Bool
  span : Span
  deriving DecidableEq

/-- A method of a class or interface, with the local variables of its body. -/
structure Method where
  name : String
  visibility : Visibility
  parameters : List Parameter
  type? : Option String
  isAbstract : Bool
  isStatic : Bool
  isAsync : Bool
  isOptional : Bool
  locals : List VariableDeclaration
  span : Span
  deriving DecidableEq

structure Accessor where
  name : String
  kind : AccessorKind
  visibility : Visibility
  type? : Option String
  isStatic : Bool
  isAbstract : Bool
  span : Span
  deriving DecidableEq

/-- The constructor of a class, with the local variables of its body. -/
structure Constructor where
  parameters : List Parameter
  locals : List VariableDeclaration
  span : Span
  deriving DecidableEq

structure ClassDeclaration where
  name : String
  exported : Bool
  isAbstract : Bool
  typeParameters : List String
  constructor? : Option Constructor
  methods : List Method
  properties : List Property
  accessors : List Accessor
  span : Span
  deriving DecidableEq

structure InterfaceDeclaration where
  name : String
  exported : Bool
  typeParameters : List String
  methods : List Method
  properties : List Property
  span : Span
  deriving DecidableEq

structure EnumDeclaration where
  name : String
  exported : Bool
  isConst : Bool
  members : List String
  span : Span
  deriving DecidableEq

/-- A function, with the local variables of its body. -/
structure FunctionDeclaration where
  name : String
  exported : Bool
  isAsync : Bool
  typeParameters : List String
  parameters : List Parameter
  locals : List VariableDeclaration
  type? : Option String
  span : Span
  deriving DecidableEq

structure TypeAliasDeclaration where
  name : String
  exported : Bool
  typeParameters : List String
  type? : Option String
  span : Span
  deriving DecidableEq

/-- A name that stands for a whole module or namespace. -/
structure ModuleDeclaration where
  name : String
  exported : Bool
  target : String
  span : Span
  deriving DecidableEq

/-- A declaration. A default export either wraps a declaration of its own or stands for a value. -/
inductive Declaration where
  | ofClass (d : ClassDeclaration)
  | ofInterface (d : InterfaceDeclaration)
  | ofEnum (d : EnumDeclaration)
  | ofFunction (d : FunctionDeclaration)
  | ofVariable (d : VariableDeclaration)
  | ofTypeAlias (d : TypeAliasDeclaration)
  | ofModule (d : ModuleDeclaration)
  | defaultValue (name? : Option String) (span : Span)
  | defaultWrapping (name? : Option String) (inner : Declaration) (span : Span)
  deriving DecidableEq

namespace Declaration

def kindName : Declaration → String
  | ofClass _ => "class"
  | ofInterface _ => "interface"
  | ofEnum _ => "enum"
  | ofFunction _ => "function"
  | ofVariable _ => "variable"
  | ofTypeAlias _ => "type_alias"
  | ofModule _ => "module"
  | defaultValue .. => "default"
  | defaultWrapping .. => "default"

/-- The name of a declaration. Only a default export may have none. -/
def name? : Declaration → Option String
  | ofClass d => some d.name
  | ofInterface d => some d.name
  | ofEnum d => some d.name
  | ofFunction d => some d.name
  | ofVariable d => some d.name
  | ofTypeAlias d => some d.name
  | ofModule d => some d.name
  | defaultValue name? _ => name?
  | defaultWrapping name? _ _ => name?

def isDefault : Declaration → Bool
  | defaultValue .. => true
  | defaultWrapping .. => true
  | _ => false

/-- Whether a declaration is exported. A default export always is. -/
def exported : Declaration → Bool
  | ofClass d => d.exported
  | ofInterface d => d.exported
  | ofEnum d => d.exported
  | ofFunction d => d.exported
  | ofVariable d => d.exported
  | ofTypeAlias d => d.exported
  | ofModule d => d.exported
  | defaultValue .. => true
  | defaultWrapping .. => true

/-- Mark a declaration as exported or not. A default export stays as it is. -/
def setExported (exported : Bool) : Declaration → Declaration
  | ofClass d => ofClass { d with exported }
  | ofInterface d => ofInterface { d with exported }
  | ofEnum d => ofEnum { d with exported }
  | ofFunction d => ofFunction { d with exported }
  | ofVariable d => ofVariable { d with exported }
  | ofTypeAlias d => ofTypeAlias { d with exported }
  | ofModule d => ofModule { d with exported }
  | d => d

def span : Declaration → Span
  | ofClass d => d.span
  | ofInterface d => d.span
  | ofEnum d => d.span
  | ofFunction d => d.span
  | ofVariable d => d.span
  | ofTypeAlias d => d.span
  | ofModule d => d.span
  | defaultValue _ span => span
  | defaultWrapping _ _ span => span

def isFunctionNamed (name : String) : Declaration → Bool
  | ofFunction d => d.name = name
  | _ => false

/-- Whether a declaration other than a default export has a name. -/
def isNamed (d : Declaration) (name : String) : Bool := !d.isDefault && d.name? = some name

@[simp] theorem exported_setExported (d : Declaration) (exported : Bool) :
    (d.setExported exported).exported = (d.isDefault || exported) := by
  cases d <;> rfl

@[simp] theorem name?_setExported (d : Declaration) (exported : Bool) :
    (d.setExported exported).name? = d.name? := by
  cases d <;> rfl

@[simp] theorem isDefault_setExported (d : Declaration) (exported : Bool) :
    (d.setExported exported).isDefault = d.isDefault := by
  cases d <;> rfl

end Declaration

end ExportIndex
