/-!
# Runs of simple case mappings

A case mapping that takes one character to one character is a list of runs. A run covers every
`step`-th code point from `first` to `last` and moves each of them by the same distance.
-/
namespace SchemaInterfaces.Text

/-- One run of a simple case mapping; `first` goes to `target`. -/
structure CaseRange where
  first : Nat
  last : Nat
  step : Nat
  target : Nat
  deriving DecidableEq, Repr

/-- The image of a code point, if the run covers it. -/
def CaseRange.image? (range : CaseRange) (code : Nat) : Option Nat :=
  if range.first ≤ code ∧ code ≤ range.last ∧ (code - range.first) % range.step = 0 then
    some (range.target + (code - range.first))
  else none

/-- The image under the first run that covers the code point. -/
def mapCase? (ranges : List CaseRange) (code : Nat) : Option Nat :=
  ranges.findSome? (·.image? code)

/-- A code point below all runs is covered by none. -/
theorem mapCase?_of_lt {ranges : List CaseRange} {bound code : Nat}
    (above : ∀ range ∈ ranges, bound ≤ range.first) (below : code < bound) :
    mapCase? ranges code = none := by
  refine List.findSome?_eq_none_iff.mpr fun range member => if_neg fun covered => ?_
  exact absurd (Nat.le_trans (above range member) covered.1) (Nat.not_le_of_lt below)

end SchemaInterfaces.Text
