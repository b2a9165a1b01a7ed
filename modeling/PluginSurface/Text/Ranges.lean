/-!
# Classes of code points

A class of characters is a list of closed ranges of code points in increasing order, as the
tables of Unicode give it.
-/

namespace PluginSurface.Text

/-- Whether `n` lies in one of the ranges. The ranges increase, so the search stops at the first
one that begins above `n`. -/
def inRanges (n : Nat) : List (Nat × Nat) → Bool
  | [] => false
  | (lo, hi) :: rest => if n < lo then false else n ≤ hi || inRanges n rest

end PluginSurface.Text
