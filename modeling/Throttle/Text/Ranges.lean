/-!
# Ranges of characters

A set of characters is given by a table of closed ranges of code points in increasing order.
-/

namespace Throttle.Text

/-- Whether a code point lies in one of the ranges `first, …, last` of the table, by halving. -/
def inRanges (ranges : Array (Nat × Nat)) (code first last : Nat) : Bool :=
  if first < last then
    let middle := (first + last) / 2
    match ranges[middle]? with
    | none => false
    | some (low, high) =>
      if code < low then inRanges ranges code first middle
      else if high < code then inRanges ranges code (middle + 1) last
      else true
  else false
termination_by last - first

/-- Whether a character is in the set of a table. -/
def isAmong (ranges : Array (Nat × Nat)) (c : Char) : Bool :=
  inRanges ranges c.toNat 0 ranges.size

end Throttle.Text
