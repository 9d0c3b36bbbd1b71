import ExportIndex.Text.Cased
import ExportIndex.Text.CaseIgnorable
import ExportIndex.Text.LowerCase
import ExportIndex.Text.UpperCase

/-!
# Camel case

A name such as `my-lib_utils` is cut into words, and the words are written together in lower case,
each but the first with a capital. Lower-casing a word writes a sigma at its end as a final sigma.
-/

namespace ExportIndex.Text

/-- The capital sigma, whose lower-case form depends on its neighbours. -/
def capitalSigma : Char := 'Σ'

/-- Whether the first character that is not case-ignorable is cased. -/
def startsCased (text : List Char) : Bool :=
  ((text.dropWhile isCaseIgnorable).head?.map isCased).getD false

/-- The lower-case form of a capital sigma between the reversed text before it and the text after
it: final after a cased character and not before one. -/
def lowerSigma (before after : List Char) : Char :=
  if startsCased before && !startsCased after then 'ς' else 'σ'

/-- Lower-case the second text, which stands after the reversed first text. -/
def lowerCaseAfter (before : List Char) : List Char → List Char
  | [] => []
  | c :: rest =>
    (if c = capitalSigma then [lowerSigma before rest] else lowerCase c) ++
      lowerCaseAfter (c :: before) rest

def lowerCaseWord (word : List Char) : List Char := lowerCaseAfter [] word

/-- A word with its first character in upper case. -/
def capitalize : List Char → List Char
  | [] => []
  | c :: rest => upperCase c ++ rest

def isWordSeparator (c : Char) : Bool := c = '-' || c = '_' || c = '.'

/-- The words of a name, without empty ones. -/
def wordsOf (name : List Char) : List (List Char) :=
  (name.splitOnP isWordSeparator).filter (!·.isEmpty)

/-- Words written together, in lower case, with a capital at the start of each but the first. -/
def joinCamel : List (List Char) → List Char
  | [] => []
  | first :: rest => lowerCaseWord first ++ rest.flatMap fun word => capitalize (lowerCaseWord word)

def camelCase (name : List Char) : List Char := joinCamel (wordsOf name)

end ExportIndex.Text
