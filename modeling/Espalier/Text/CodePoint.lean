/-!
# Tables of code points

A property of characters that no formula gives is kept as a table: the ranges of code points that
have it, or runs with a stride where every other code point has it.
-/

namespace Espalier.Text

/-- The character's code point lies in one of the ranges, ends included. -/
def inRanges (table : List (Nat × Nat)) (c : Char) : Bool :=
  table.any fun r => r.1 ≤ c.toNat && c.toNat ≤ r.2

/-- Every `stride`-th code point from `first` to `last`. -/
structure Run where
  first : Nat
  last : Nat
  stride : Nat

/-- The code point is one of the run's. -/
def Run.contains (r : Run) (n : Nat) : Bool :=
  r.first ≤ n && n ≤ r.last && (n - r.first) % r.stride == 0

end Espalier.Text
