import ExportIndex.Document
import ExportIndex.Failure
import ExportIndex.Text.Affix

/-!
# Rejected texts

A text is rejected at the first node of its tree that stands for unreadable text or for text that
is absent.
-/

namespace ExportIndex

/-- The kind of a node that stands for unreadable text. -/
def errorKind : String := "ERROR"

/-- Whether a node stands for unreadable or absent text. -/
def Node.isFaulty (node : Node) : Bool := node.kind = errorKind || node.missing

/-- The first faulty node of a tree, in source order. -/
def Node.firstFault? (node : Node) : Option Node :=
  ((Site.ofRoot node).preorder.map (·.node)).find? Node.isFaulty

/-- The first line of a text. A carriage return counts as part of the line end only before a line
feed. -/
def firstLine (text : List Char) : List Char :=
  match text.splitOn '\n' with
  | [] => []
  | [only] => only
  | line :: _ => (Text.beforeEnding? ['\r'] line).getD line

/-- How many characters of unreadable text a diagnostic shows. -/
def excerptLength : Nat := 40

/-- What is wrong at a faulty node. -/
def Node.faultDetail (source : String) (node : Node) : String :=
  if node.missing then "missing \x60" ++ node.kind ++ "\x60"
  else
    let excerpt := (firstLine (node.text source).toList).take excerptLength
    "unexpected \x60" ++ String.ofList excerpt ++ "\x60"

/-- The diagnostic for the first faulty node of a document. -/
def Document.diagnostic? (document : Document) (file : String) : Option Diagnostic :=
  document.root.firstFault?.map fun node =>
    let position := positionOf document.text node.span.start
    ⟨file, position.line, position.column, node.faultDetail document.text⟩

end ExportIndex
