import ExportIndex.Path
import ExportIndex.Span

/-!
# Configuration

How an index is built.
-/

namespace ExportIndex

/-- How source texts are read. -/
structure ParserConfig where
  /-- Whether a text with unreadable or absent parts is refused. -/
  rejectsFaults : Bool := true
  deriving DecidableEq

/-- The most files that can be read at the same time, an eighth of the largest number. -/
def readLimit : Nat := (numberLimit - 1) / 8

/-- How an index is built. -/
structure Config where
  /-- The directory against which module keys are computed. -/
  root : Path := ⟨"."⟩
  /-- How many files may be read at the same time. It has no influence on what is read, but builds that
  are allowed more than `readLimit` are broken off. -/
  maxConcurrentReads : Nat := 32
  /-- Whether the string-named modules of declaration files become modules of their own. -/
  hoistsAmbientModules : Bool := true
  parser : ParserConfig := {}
  deriving DecidableEq

end ExportIndex
