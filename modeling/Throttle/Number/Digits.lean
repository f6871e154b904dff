/-!
# Digits

Natural numbers as digits: `natOfDigits?` reads them in a base up to sixteen, `decimalDigits` writes
them in base ten.
-/

namespace Throttle.Number

/-- The value of a digit. -/
def digitValue? (base : Nat) (c : Char) : Option Nat :=
  let value? :=
    if '0' ≤ c ∧ c ≤ '9' then some (c.toNat - '0'.toNat)
    else if 'a' ≤ c ∧ c ≤ 'f' then some (c.toNat - 'a'.toNat + 10)
    else if 'A' ≤ c ∧ c ≤ 'F' then some (c.toNat - 'A'.toNat + 10)
    else none
  value?.filter (· < base)

/-- Whether a character is a decimal digit. -/
def isDigit (c : Char) : Bool := '0' ≤ c && c ≤ '9'

/-- The number that digits mean behind the number `high`. -/
def appendDigits? (base high : Nat) : List Char → Option Nat
  | [] => some high
  | c :: rest => do appendDigits? base (base * high + (← digitValue? base c)) rest

/-- The number that digits mean; at least one digit has to stand there. -/
def natOfDigits? (base : Nat) : List Char → Option Nat
  | [] => none
  | digits => appendDigits? base 0 digits

/-- A number in base ten. -/
def decimalDigits (n : Nat) : List Char := Nat.toDigits 10 n

/-- The characters in front that satisfy a predicate, and the rest. -/
def splitWhile (p : Char → Bool) (text : List Char) : List Char × List Char :=
  (text.takeWhile p, text.dropWhile p)

example : natOfDigits? 16 ['f', 'F'] = some 255 ∧ natOfDigits? 10 ['f'] = none ∧
    natOfDigits? 10 [] = none := by decide +kernel

end Throttle.Number
