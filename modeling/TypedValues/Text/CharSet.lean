/-!
# Sets of characters

A `CharSet` is kept as the ascending list of its boundaries, so that a Unicode property with
hundreds of ranges is one list of numbers.
-/

namespace TypedValues.Text

/-- The set begins at the first boundary, stops before the second, begins again at the third,
and so on. -/
structure CharSet where
  bounds : List Nat

/-- A character is inside when an odd number of boundaries lies at or before it. -/
def CharSet.contains (s : CharSet) (c : Char) : Bool :=
  (s.bounds.takeWhile (· ≤ c.toNat)).length % 2 == 1

end TypedValues.Text
