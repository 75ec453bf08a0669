import Mips32.Text.Basic

/-!
# Sets of characters as ranges of code points

The character properties of Unicode that the library needs are kept as lists of closed ranges, in
ascending order. Membership is a search through the list, so a property is decidable by evaluation.
-/

namespace Mips32.Text

/-- Whether the code point of `c` lies in one of the closed ranges. -/
def inRanges (ranges : List (Nat × Nat)) (c : CodePoint) : Bool :=
  ranges.any fun r => r.1 ≤ c.toNat && c.toNat ≤ r.2

end Mips32.Text
