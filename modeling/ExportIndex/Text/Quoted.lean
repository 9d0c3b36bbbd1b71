import ExportIndex.Text.Blank

/-!
# Quoted text

Reading the text of a string literal, or of a plain name, without its quotation marks.
-/

namespace ExportIndex.Text

/-- The quotation marks, in the order in which they are tried. -/
def quoteMarks : List Char := ['"', '\'', '\x60']

/-- The text between two copies of a mark. A lone mark encloses nothing. -/
def enclosed? (mark : Char) : List Char → Option (List Char)
  | [] => none
  | first :: rest => if first = mark ∧ rest.getLast? = some mark then some rest.dropLast else none

/-- The text without surrounding white space and without one pair of quotation marks. -/
def unquoteChars (text : List Char) : List Char :=
  (quoteMarks.findSome? (enclosed? · (trimBlank text))).getD (trimBlank text)

def unquote (text : String) : String := String.ofList (unquoteChars text.toList)

end ExportIndex.Text
