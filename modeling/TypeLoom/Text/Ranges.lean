/-
**Ranges of code points.**

A property of characters beyond ASCII is a list of closed ranges of code points, in ascending
order. The one operation is membership.
-/

namespace TypeLoom.Text

/-- The character lies in one of the closed ranges. -/
def inRanges (ranges : List (Nat × Nat)) (c : Char) : Bool :=
  ranges.any fun range => range.1 ≤ c.toNat && c.toNat ≤ range.2

end TypeLoom.Text
