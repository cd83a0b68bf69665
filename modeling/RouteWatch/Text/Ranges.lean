/-!
# Tables of ranges

A class of characters beyond ASCII is given as a table of ranges of code points, both ends
included, in ascending order.
-/

namespace RouteWatch.Text

/-- Membership in one of the ranges of a table. -/
def inRanges (table : Array (Nat × Nat)) (n : Nat) : Bool :=
  table.any fun r ↦ r.1 ≤ n && n ≤ r.2

end RouteWatch.Text
