/-!
Sets of code points, written as ascending ranges that do not touch.
-/

namespace FactRules.Text

abbrev CodeRanges := List (Nat × Nat)

namespace CodeRanges

def contains : CodeRanges → Nat → Bool
  | [], _ => false
  | (first, last) :: later, code =>
      if code < first then false else decide (code ≤ last) || contains later code

def ascendingFrom : Nat → CodeRanges → Bool
  | _, [] => true
  | lower, (first, last) :: later =>
      decide (lower ≤ first) && decide (first ≤ last) && ascendingFrom (last + 1) later

end CodeRanges

end FactRules.Text
