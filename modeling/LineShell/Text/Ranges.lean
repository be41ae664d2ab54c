/-! Sets of characters given by the ranges of their code points. -/

namespace LineShell.Text

/-- Closed ranges of code points, in increasing order. -/
abbrev Ranges := List (Nat × Nat)

namespace Ranges

/-- Membership of a character in one of the ranges. -/
def holds (ranges : Ranges) (c : Char) : Bool :=
  ranges.any fun (low, high) => low ≤ c.toNat && c.toNat ≤ high

end Ranges

end LineShell.Text
