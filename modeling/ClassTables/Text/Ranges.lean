/-!
# Sets of characters given by ranges of code points
-/

namespace ClassTables.Text

/-- Whether the character lies in one of the ranges, ends included. -/
def inRanges (rs : List (Nat × Nat)) (c : Char) : Bool :=
  rs.any fun r => r.1 ≤ c.toNat && c.toNat ≤ r.2

end ClassTables.Text
