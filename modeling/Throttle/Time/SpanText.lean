import Throttle.Number.Powers
import Throttle.Time

/-!
# Spans as text

A span is written in the largest of the units s, ms, µs and ns whose whole part is not zero, with
as many decimals as it needs: `10s`, `2.5s`, `1.5ms`, `100ms`, `3ns`, `0ns`.
-/

namespace Throttle.Time

/-- The `width` low decimal digits of `n`, with zeros in front. -/
def paddedDigits (width n : Nat) : List Char :=
  let digits := Nat.toDigits 10 n
  List.replicate (width - digits.length) '0' ++ digits

/-- The decimals of `rest / 10 ^ places` with their point, without zeros at the end; nothing when
`rest` is zero. -/
def decimals (places rest : Nat) : List Char :=
  if rest = 0 then []
  else '.' :: ((paddedDigits places rest).reverse.dropWhile (· == '0')).reverse

/-- `span / 10 ^ places` with the name of its unit. -/
def inUnit (span places : Nat) (unit : String) : String :=
  let scale := Number.tenPow places
  toString (span / scale) ++ String.ofList (decimals places (span % scale)) ++ unit

/-- A span in its largest fitting unit. -/
def spanText (span : Nat) : String :=
  if second ≤ span then inUnit span 9 "s"
  else if millisecond ≤ span then inUnit span 6 "ms"
  else if 1000 ≤ span then inUnit span 3 "µs"
  else inUnit span 0 "ns"

example : spanText 3333333333 = "3.333333333s" ∧ spanText 1500 = "1.5µs" ∧ spanText 0 = "0ns" := by
  decide +kernel

end Throttle.Time
