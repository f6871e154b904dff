/-!
# Powers

Powers of the two bases that numbers are written in.
-/

namespace Throttle.Number

/-- A power of two. -/
def twoPow (n : Nat) : Nat := Nat.pow 2 n

/-- A power of ten. -/
def tenPow (n : Nat) : Nat := Nat.pow 10 n

end Throttle.Number
