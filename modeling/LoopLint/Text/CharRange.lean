/-!
# Ranges of characters

Classes of characters are given as lists of ranges, each by the numbers of its first and its last
character.
-/

namespace LoopLint.Text

/-- Whether a number lies in one of some ranges. -/
def inSome (ranges : List (Nat × Nat)) (n : Nat) : Bool :=
  ranges.any (fun r => r.1 ≤ n && n ≤ r.2)

end LoopLint.Text
