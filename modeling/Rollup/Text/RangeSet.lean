/-
Sets of code points given as closed ranges, the form in which Unicode properties are stored.
-/

namespace Rollup.Text

/-- A set of code points: those that lie in one of the closed ranges. -/
structure RangeSet where
  ranges : Array (Nat × Nat)

/-- A code point belongs to the set when some range holds it. -/
def RangeSet.contains (s : RangeSet) (c : Char) : Bool :=
  s.ranges.any fun (lo, hi) => lo ≤ c.toNat && c.toNat ≤ hi

end Rollup.Text
