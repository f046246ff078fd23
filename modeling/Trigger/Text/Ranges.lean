/-!
# Ranges of code points

A class of characters that a standard gives as a table is kept here as a list of closed ranges of
code points, in increasing order.  `covers` looks a code point up and stops at the first range that
lies beyond it.
-/

namespace Trigger.Text

/-- A table of closed ranges of code points, in increasing order. -/
abbrev Ranges := List (Nat × Nat)

namespace Ranges

/-- Whether a code point lies in a range of the table. -/
def covers : Ranges → Nat → Bool
  | [], _ => false
  | (low, high) :: more, n => if n < low then false else n ≤ high || covers more n

/-- Whether the ranges are non-empty, increasing and apart. -/
def ordered : Ranges → Bool
  | [] => true
  | [(low, high)] => low ≤ high
  | (low, high) :: (low', high') :: more =>
    low ≤ high && high < low' && ordered ((low', high') :: more)

end Ranges

end Trigger.Text
