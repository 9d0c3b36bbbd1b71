import ExportIndex.Span

/-!
# Imports and exports

The statements that tie a module to other modules, and the specifiers inside them.
-/

namespace ExportIndex

/-- The default slot is addressed by this name. -/
def defaultName : String := "default"

/-- One entry of an import or export clause: a name, and the new name it is given, if any. -/
structure SymbolSpecifier where
  name : String
  rename? : Option String
  deriving DecidableEq

/-- The name that a specifier binds on the receiving side. -/
def SymbolSpecifier.localName (s : SymbolSpecifier) : String := s.rename?.getD s.name

inductive Import where
  /-- `import "m"` binds nothing. -/
  | bare (library : String) (span : Span)
  /-- `import D, {a, b as c} from "m"`, with or without the leading default binding. -/
  | named (library : String) (specifiers : List SymbolSpecifier) (defaultLocal? : Option String)
      (isTypeOnly : Bool) (span : Span)
  /-- `import * as ns from "m"`. -/
  | star (library localName : String) (isTypeOnly : Bool) (span : Span)
  /-- `import D from "m"`. -/
  | ofDefault (library localName : String) (span : Span)
  /-- `import x = require("m")`. -/
  | required (library localName : String) (span : Span)
  deriving DecidableEq

namespace Import

def library : Import → String
  | bare library _ => library
  | named library _ _ _ _ => library
  | star library _ _ _ => library
  | ofDefault library _ _ => library
  | required library _ _ => library

def span : Import → Span
  | bare _ span => span
  | named _ _ _ _ span => span
  | star _ _ _ span => span
  | ofDefault _ _ span => span
  | required _ _ span => span

def localNames : Import → List String
  | bare .. => []
  | named _ specifiers defaultLocal? _ _ =>
    defaultLocal?.toList ++ specifiers.map SymbolSpecifier.localName
  | star _ localName _ _ => [localName]
  | ofDefault _ localName _ => [localName]
  | required _ localName _ => [localName]

/-- The name bound to the whole imported module, if the statement binds one. -/
def moduleLocal? : Import → Option String
  | star _ localName _ _ => some localName
  | required _ localName _ => some localName
  | _ => none

end Import

/-- What an `export =` statement points at inside its own resource, by position. -/
inductive AssignedTarget where
  | declaration (index : Nat)
  | resource (index : Nat)
  deriving DecidableEq

/-- An export statement other than an exported declaration. -/
inductive Export where
  /-- `export * from "m"`, or `export * as ns from "m"`. -/
  | all (source : String) (rename? : Option String) (span : Span)
  /-- `export {a, b as c}`, with or without a source module. -/
  | named (source? : Option String) (specifiers : List SymbolSpecifier) (isTypeOnly : Bool) (span : Span)
  /-- `export = name`. -/
  | assigned (name : String) (targets : List AssignedTarget) (span : Span)
  deriving DecidableEq

namespace Export

/-- The specifier of the module that an export statement re-exports from. -/
def source? : Export → Option String
  | all source _ _ => some source
  | named source? _ _ _ => source?
  | assigned .. => none

def span : Export → Span
  | all _ _ span => span
  | named _ _ _ span => span
  | assigned _ _ span => span

def isAssigned : Export → Bool
  | assigned .. => true
  | _ => false

def localSpecifiers : Export → List SymbolSpecifier
  | named none specifiers _ _ => specifiers
  | _ => []

end Export

end ExportIndex
