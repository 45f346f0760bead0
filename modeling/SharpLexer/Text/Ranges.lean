/-!
# Sets of characters by ranges of code points

A property of characters is kept as a list of ranges in ascending order.
-/

namespace SharpLexer.Text

/-- A set of code points: closed ranges, ascending and apart. -/
abbrev Ranges := List (Nat × Nat)

/-- Membership.  The ranges ascend, so the search ends at the first range
that starts above `n`. -/
def Ranges.has : Ranges → Nat → Bool
  | [], _ => false
  | (low, high) :: rest, n => low ≤ n && (n ≤ high || has rest n)

end SharpLexer.Text
