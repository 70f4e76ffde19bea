/-! A character class is a list of ranges of code points. Classes stay plain
data, so that questions about a whole class are questions about the ends of
its ranges. -/
namespace Summand

/-- The code points from `first` to `last`, both included. -/
structure CodeRange where
  first : Nat
  last : Nat
  deriving Repr, DecidableEq

namespace CodeRange

/-- Whether a character lies in the range. -/
def contains (range : CodeRange) (c : Char) : Bool :=
  range.first ≤ c.toNat && c.toNat ≤ range.last

/-- Whether some range of a class holds the character. -/
def anyContains (ranges : List CodeRange) (c : Char) : Bool :=
  ranges.any (·.contains c)

theorem anyContains_iff {ranges : List CodeRange} {c : Char} :
    anyContains ranges c = true ↔
      ∃ range ∈ ranges, range.first ≤ c.toNat ∧ c.toNat ≤ range.last := by
  simp [anyContains, contains]

end CodeRange
end Summand
