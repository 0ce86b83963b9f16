/-!
# Character properties

A property of characters is given by the ranges of code points that have it, both ends included.
-/
namespace C4.Text

def inRanges (ranges : List (Nat × Nat)) (c : Char) : Bool :=
  ranges.any fun r => r.1 ≤ c.toNat && c.toNat ≤ r.2

end C4.Text
