/-!
# Spans

A span marks a construct in a source text by the bytes it covers.
-/

namespace ExportIndex

/-- Offsets and positions lie below this limit. -/
def numberLimit : Nat := 18446744073709551616

/-- The bytes from `start` up to, but not including, `stop`. -/
structure Span where
  start : Nat
  stop : Nat
  deriving DecidableEq, Inhabited

end ExportIndex
