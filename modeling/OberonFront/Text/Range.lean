/-!
# Sets of code points

A property of code points as a list of closed ranges, ascending and apart.
-/

namespace OberonFront

/-- Whether a code point lies in one of the ranges.  The search ends at the first range that
reaches as far as the code point. -/
def inRanges : List (Nat × Nat) → Nat → Bool
  | [], _ => false
  | (lo, hi) :: ranges, code => if code ≤ hi then decide (lo ≤ code) else inRanges ranges code

end OberonFront
