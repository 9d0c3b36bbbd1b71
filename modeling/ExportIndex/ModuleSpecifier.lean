import ExportIndex.ModuleKey

/-!
# Module specifiers

The text after `from` names a module relative to the importing one, from the root, or as a library.
It is resolved to a known module key, either the one it spells or the `index` module below it.
-/

namespace ExportIndex

/-- One step of a walk along path segments, over the reversed list of the segments so far. -/
def walkSegment (walked : List (List Char)) (segment : List Char) : List (List Char) :=
  if segment = [] ∨ segment = ['.'] then walked
  else if segment = ['.', '.'] then walked.tail
  else segment :: walked

/-- The segments of a module path after `.` and `..` are walked; `..` at the start is dropped. -/
def walkedSegments (path : List Char) : List (List Char) :=
  ((path.splitOn '/').foldl walkSegment []).reverse

/-- The module path without empty, `.` and `..` segments. A leading slash stays. -/
def normalizePathChars (path : List Char) : List Char :=
  let joined := ['/'].intercalate (walkedSegments path)
  if path.head? = some '/' then '/' :: joined else joined

def normalizeModulePath (path : String) : String :=
  String.ofList (normalizePathChars path.toList)

/-- Whether a specifier is a path and not the name of a library. -/
def isPathSpecifier (specifier : String) : Bool :=
  specifier = "." || specifier = ".." || "./".toList.isPrefixOf specifier.toList ||
    "../".toList.isPrefixOf specifier.toList || specifier.toList.head? = some '/'

/-- The directory against which a module's relative specifiers are resolved. A library key without
a slash is its own directory. -/
def moduleDirectory (key : ModuleKey) : String :=
  match Text.beforeLast? '/' key.toList with
  | some [] => "/"
  | some before => String.ofList before
  | none => key

/-- The key that a specifier spells, seen from a module. -/
def specifiedKey (fromModule : ModuleKey) (specifier : String) : ModuleKey :=
  if isPathSpecifier specifier then
    let path :=
      if specifier.toList.head? = some '/' then specifier
      else moduleDirectory fromModule ++ "/" ++ specifier
    stripSourceExtension (normalizeModulePath path)
  else specifier

/-- The key of the `index` module below a key. -/
def indexKey (key : ModuleKey) : ModuleKey :=
  if key.toList.getLast? = some '/' then key ++ "index" else key ++ "/index"

/-- The known module that a specifier names, seen from a module. -/
def resolveSpecifier? (isKnown : ModuleKey → Bool) (fromModule : ModuleKey) (specifier : String) :
    Option ModuleKey :=
  let key := specifiedKey fromModule specifier
  [key, indexKey key].find? isKnown

theorem specifiedKey_of_bare {specifier : String} (h : isPathSpecifier specifier = false)
    (fromModule : ModuleKey) : specifiedKey fromModule specifier = specifier := by
  simp [specifiedKey, h]

theorem resolveSpecifier?_eq_some_iff {isKnown : ModuleKey → Bool} {fromModule key : ModuleKey}
    {specifier : String} : resolveSpecifier? isKnown fromModule specifier = some key ↔
      isKnown key = true ∧ (specifiedKey fromModule specifier = key ∨
        isKnown (specifiedKey fromModule specifier) = false ∧
          indexKey (specifiedKey fromModule specifier) = key) := by
  unfold resolveSpecifier?
  grind

end ExportIndex
