/-!
# Classes of characters as ranges of code points

A class is kept as the ascending list of its maximal ranges, both ends included.
-/

namespace Dialogue.Text

/-- whether `n` lies in one of the ranges, which ascend -/
def inRanges : List (Nat × Nat) → Nat → Bool
  | [], _ => false
  | (first, last) :: rs, n => if n < first then false else n ≤ last || inRanges rs n

end Dialogue.Text
