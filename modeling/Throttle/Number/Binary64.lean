import Throttle.Count
import Throttle.Number.Digits
import Throttle.Number.Powers

/-!
# Binary floating point numbers

Numbers with 53 binary digits, as numerals in settings are read. A finite number is
`±mantissa · 2 ^ exponent`; mantissas have 53 digits except next to zero, where the exponent is at
its lowest. Every operation is exact on ratios of naturals and rounds once, to the nearest number and
to an even mantissa half way.

## Main definitions

* `Binary64.ofRatio`, `Binary64.ofDecimal` — the nearest number.
* `Binary64.shortest` — the fewest decimal digits that read back.
* `Binary64.text` — positional decimal text.
* `Binary64.toCount` — the nearest count.
-/

namespace Throttle.Number

/-- A floating point number. -/
inductive Binary64 where
  | finite (negative : Bool) (mantissa : Nat) (exponent : Int)
  | infinite (negative : Bool)
  | nan
deriving Repr, DecidableEq

/-- A quotient rounded to the nearest natural number, to an even one half way. -/
def roundHalfEven (num den : Nat) : Nat :=
  let floor := num / den
  let rest := 2 * (num % den)
  if rest < den then floor
  else if den < rest then floor + 1
  else floor + floor % 2

namespace Binary64

/-- The exponent of the numbers next to zero. -/
def lowest : Int := -1074

/-- The exponent of the largest numbers. -/
def highest : Int := 971

/-- Zero. -/
def zero (negative : Bool) : Binary64 := finite negative 0 lowest

/-- `num / (den · 2 ^ exponent)` as a ratio of naturals. -/
def unscale (num den : Nat) (exponent : Int) : Nat × Nat :=
  if 0 ≤ exponent then (num, den * twoPow exponent.toNat) else (num * twoPow (-exponent).toNat, den)

/-- The number nearest to `num / den`. -/
def ofRatio (negative : Bool) (num den : Nat) : Binary64 :=
  if num = 0 then zero negative
  else
    let guess := max ((num.log2 : Int) - den.log2 - 53) lowest
    let (top, bottom) := unscale num den guess
    let exponent := if twoPow 53 ≤ top / bottom then guess + 1 else guess
    let (top, bottom) := unscale num den exponent
    let mantissa := roundHalfEven top bottom
    let (mantissa, exponent) :=
      if mantissa = twoPow 53 then (twoPow 52, exponent + 1) else (mantissa, exponent)
    if highest < exponent then infinite negative else finite negative mantissa exponent

/-- The number nearest to `digits · 10 ^ exponent`. Where the size alone tells the result, the power
is not computed. -/
def ofDecimal (negative : Bool) (digits : Nat) (exponent : Int) : Binary64 :=
  let size := ((decimalDigits digits).length : Int) + exponent
  if digits = 0 ∨ size < -330 then zero negative
  else if 310 < size then infinite negative
  else if 0 ≤ exponent then ofRatio negative (digits * tenPow exponent.toNat) 1
  else ofRatio negative digits (tenPow (-exponent).toNat)

/-- The size of a finite number as a ratio. -/
def ratio (mantissa : Nat) (exponent : Int) : Nat × Nat :=
  if 0 ≤ exponent then (mantissa * twoPow exponent.toNat, 1) else (mantissa, twoPow (-exponent).toNat)

/-- The product with `10 ^ power`, where the power is rounded to a number of its own first. -/
def timesPowerOfTen (power : Nat) : Binary64 → Binary64
  | finite negative mantissa exponent =>
    match ofRatio false (tenPow power) 1 with
    | finite _ m e =>
      let (n₁, d₁) := ratio mantissa exponent
      let (n₂, d₂) := ratio m e
      ofRatio negative (n₁ * n₂) (d₁ * d₂)
    | other => other
  | other => other

/-- The quotient by `10 ^ power`, where the power is rounded to a number of its own first. -/
def overPowerOfTen (power : Nat) : Binary64 → Binary64
  | finite negative mantissa exponent =>
    match ofRatio false (tenPow power) 1 with
    | finite _ m e =>
      let (n₁, d₁) := ratio mantissa exponent
      let (n₂, d₂) := ratio m e
      ofRatio negative (n₁ * d₂) (d₁ * n₂)
    | other => other
  | other => other

/-! ## Shortest digits -/

/-- The numbers whose nearest number is `mantissa · 2 ^ exponent`, as a multiple of a quarter of the
last place: the lower end, the upper end, and whether the ends belong to them. -/
def neighbourhood (mantissa : Nat) (exponent : Int) : Nat × Nat × Bool :=
  let lower :=
    if mantissa = twoPow 52 ∧ lowest < exponent then 4 * mantissa - 1 else 4 * mantissa - 2
  (lower, 4 * mantissa + 2, mantissa % 2 = 0)

/-- Compare `a · 2 ^ e` with `b · 10 ^ k`. -/
def compareScaled (a : Nat) (e : Int) (b : Nat) (k : Int) : Ordering :=
  compare (a * twoPow e.toNat * tenPow (-k).toNat) (b * tenPow k.toNat * twoPow (-e).toNat)

/-- Whether `digits · 10 ^ power` reads back as the number. -/
def readsBack (mantissa : Nat) (exponent : Int) (digits : Nat) (power : Int) : Bool :=
  let (lower, upper, closed) := neighbourhood mantissa exponent
  let low := compareScaled lower (exponent - 2) digits power
  let high := compareScaled upper (exponent - 2) digits power
  (low == .lt || (closed && low == .eq)) && (high == .gt || (closed && high == .eq))

/-- `size · 2 ^ exponent / 10 ^ power`, rounded down. -/
def scaledFloor (size : Nat) (exponent power : Int) : Nat :=
  (size * twoPow exponent.toNat * tenPow (-power).toNat) / (twoPow (-exponent).toNat * tenPow power.toNat)

/-- The power of ten of a number's first decimal digit, starting from a guess that is not too low. -/
def leadingPower (mantissa : Nat) (exponent : Int) : Nat → Int → Int
  | 0, power => power
  | fuel + 1, power =>
    if scaledFloor mantissa exponent power = 0 then leadingPower mantissa exponent fuel (power - 1)
    else power

/-- The nearer of the two decimals on the grid `10 ^ power` next to the number, and the upper one half
way, if one of them reads back. -/
def nearestOnGrid (mantissa : Nat) (exponent power : Int) : Option Nat :=
  let below := scaledFloor mantissa exponent power
  let size := mantissa
  let lower := if below ≠ 0 ∧ readsBack size exponent below power then some below else none
  let upper := if readsBack size exponent (below + 1) power then some (below + 1) else none
  match lower, upper with
  | none, other => other
  | some below, none => some below
  | some below, some above =>
    match compareScaled (2 * size) exponent (below + above) power with
    | .lt => some below
    | _ => some above

/-- The shortest decimal that reads back, from grids that get finer by the power of ten. -/
def searchGrids (mantissa : Nat) (exponent : Int) : Nat → Int → Nat × Int
  | 0, power => (scaledFloor mantissa exponent power, power)
  | fuel + 1, power =>
    match nearestOnGrid mantissa exponent power with
    | some digits => (digits, power)
    | none => searchGrids mantissa exponent fuel (power - 1)

/-- The fewest decimal digits that read back as the number, and the power of ten of the last one. Of
two candidates the nearer one is taken, and the upper one half way. -/
def shortest (mantissa : Nat) (exponent : Int) : Nat × Int :=
  let guess := ((mantissa.log2 : Int) + exponent) * 3 / 10 + 3
  let leading := leadingPower mantissa exponent 70 guess
  searchGrids mantissa exponent 18 leading

/-- `digits · 10 ^ power` in positional notation. -/
def positional (digits : Nat) (power : Int) : List Char :=
  if 0 ≤ power then decimalDigits digits ++ List.replicate power.toNat '0'
  else
    let places := (-power).toNat
    let written := decimalDigits digits
    let written := List.replicate (places + 1 - written.length) '0' ++ written
    let fraction := (written.drop (written.length - places)).reverse.dropWhile (· == '0') |>.reverse
    let whole := written.take (written.length - places)
    if fraction.isEmpty then whole else whole ++ '.' :: fraction

/-- Positional decimal text. With `pointed`, a whole number gets a point and a zero. -/
def text (pointed : Bool) : Binary64 → String
  | nan => "NaN"
  | infinite negative => if negative then "-inf" else "inf"
  | finite negative mantissa exponent =>
    let size :=
      if mantissa = 0 then ['0']
      else
        let (digits, power) := shortest mantissa exponent
        positional digits power
    let size := if pointed && !size.contains '.' then size ++ ['.', '0'] else size
    String.ofList (if negative then '-' :: size else size)

/-- The nearest count, away from zero half way; the nearer end for a number that is no count, and zero
for what is no number. -/
def toCount : Binary64 → Nat
  | nan => 0
  | infinite negative => if negative then 0 else Count.largest
  | finite true _ _ => 0
  | finite false mantissa exponent =>
    let (num, den) := ratio mantissa exponent
    min ((2 * num + den) / (2 * den)) Count.largest

end Binary64

end Throttle.Number
