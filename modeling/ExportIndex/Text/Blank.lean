import ExportIndex.Text.Ranges

/-!
# White space

The blanks are the 25 characters with the White_Space property. Zero-width spaces and the byte
order mark are not among them.
-/

namespace ExportIndex.Text

/-- The ranges of white space, ascending. -/
def blankRanges : List Range :=
  [(0x9, 0xd), (0x20, 0x20), (0x85, 0x85), (0xa0, 0xa0), (0x1680, 0x1680), (0x2000, 0x200a),
   (0x2028, 0x2029), (0x202f, 0x202f), (0x205f, 0x205f), (0x3000, 0x3000)]

def isBlank (c : Char) : Bool := inRanges blankRanges c

/-- The text without the white space at its two ends. -/
def trimBlank (text : List Char) : List Char :=
  ((text.dropWhile isBlank).reverse.dropWhile isBlank).reverse

end ExportIndex.Text
