import ExportIndex.Node
import ExportIndex.Text.Quoted

/-!
# Documents

A document is a source text together with its syntax tree. Spans of the tree are read as bytes of
the text.
-/

namespace ExportIndex

/-- A source text with its syntax tree. -/
structure Document where
  text : String
  root : Node
  deriving Inhabited

/-- The text that a span covers. A span that does not fit the text covers nothing. -/
def textOf (source : String) (span : Span) : String :=
  if span.start ≤ span.stop ∧ span.stop ≤ source.utf8ByteSize then
    (String.fromUTF8? (source.toUTF8.extract span.start span.stop)).getD ""
  else ""

namespace Node

def text (source : String) (node : Node) : String := textOf source node.span

/-- The text of the child in a field, without quotation marks. -/
def fieldText? (source : String) (node : Node) (field : String) : Option String :=
  (node.field? field).map fun child => Text.unquote (child.text source)

end Node

/-- A place in a text, by line and byte column, both counted from one. -/
structure Position where
  line : Nat
  column : Nat
  deriving DecidableEq

/-- The position that follows some bytes. -/
def Position.after (bytes : List UInt8) : Position where
  line := bytes.count 10 + 1
  column := (bytes.reverse.takeWhile (· ≠ 10)).length + 1

/-- The position of a byte offset in a text. -/
def positionOf (source : String) (offset : Nat) : Position :=
  .after (source.toUTF8.toList.take offset)

end ExportIndex
