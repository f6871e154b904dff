/-!
# Counts

A count is a natural number that has to fit in 64 bits. Adding stays at the largest count instead
of going past it.
-/

namespace Throttle.Count

/-- The largest count. -/
def largest : Nat := 18446744073709551615

/-- The sum of two counts, or the largest count if the sum does not fit. -/
def add (m n : Nat) : Nat := min (m + n) largest

/-- Nothing is lost while the sum fits. -/
theorem add_eq_of_le {m n : Nat} (h : m + n ≤ largest) : add m n = m + n :=
  Nat.min_eq_left h

/-- The largest count is the largest 64-bit word. -/
theorem toNat_le_largest (n : UInt64) : n.toNat ≤ largest := by
  have := n.toNat_lt
  unfold largest; omega

end Throttle.Count
