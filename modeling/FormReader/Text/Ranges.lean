import FormReader.Text.Basic

/-! # Ranges — sets of code points as ascending intervals

    A property of Unicode is carried as the list of its closed intervals, in
    ascending order and with a gap between neighbours.  Looking a number up
    stops at the first interval that begins beyond it. -/

namespace FormReader

/-- Closed intervals of numbers, ascending and apart. -/
abbrev Ranges := List (Nat × Nat)

namespace Ranges

/-- The number lies in one of the intervals. -/
def contains : Ranges → Nat → Bool
  | [], _ => false
  | (low, high) :: rest, n => if n < low then false else if n ≤ high then true else contains rest n

/-- Every interval is non-empty, and the next one begins behind a gap. -/
def ascending : Ranges → Bool
  | [] => true
  | [(low, high)] => low ≤ high
  | (low, high) :: (low', high') :: rest =>
    low ≤ high && high + 1 < low' && ascending ((low', high') :: rest)

end Ranges

end FormReader
