/-!
# Tables of characters

Character classes are lists of ranges of code points. Case mappings are lists of runs, in which
neighbouring characters, or every second one, move by the same distance.
-/

namespace ExportIndex.Text

/-- The code points from the first to the second, both included. -/
abbrev Range := Nat × Nat

/-- Whether a character's code point lies in one of the ranges. -/
def inRanges (ranges : List Range) (c : Char) : Bool :=
  ranges.any fun range => range.1 ≤ c.toNat && c.toNat ≤ range.2

/-- The code points `first`, `first + step`, … up to `last`, mapped to `target`,
`target + step`, … in order. -/
structure CaseRun where
  first : Nat
  last : Nat
  step : Nat
  target : Nat

/-- What a run maps a code point to, if it covers the code point. -/
def CaseRun.map? (run : CaseRun) (code : Nat) : Option Nat :=
  if run.first ≤ code ∧ code ≤ run.last ∧ (code - run.first) % run.step = 0 then
    some (run.target + (code - run.first))
  else none

/-- The form of a character that a table of runs and a table of expansions give; a character in
neither is its own form. -/
def caseForm (runs : List CaseRun) (expansions : List (Nat × List Nat)) (c : Char) : List Char :=
  match expansions.lookup c.toNat with
  | some codes => codes.map Char.ofNat
  | none => [((runs.findSome? (·.map? c.toNat)).map Char.ofNat).getD c]

end ExportIndex.Text
