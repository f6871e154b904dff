import Throttle.Number.Binary64

/-!
# Literals

Numbers as they are written: an optional sign and digits, or a decimal fraction with an exponent. No
blank and no separator may stand in a literal.
-/

namespace Throttle.Number

/-- Whether a literal is negative, and what stands behind its sign. -/
def splitSign : List Char → Bool × List Char
  | '-' :: rest => (true, rest)
  | '+' :: rest => (false, rest)
  | rest => (false, rest)

/-- A natural number with an optional plus sign. -/
def nat? (base : Nat) (text : List Char) : Option Nat :=
  match text with
  | '+' :: digits => natOfDigits? base digits
  | digits => natOfDigits? base digits

/-- An integer with an optional sign. -/
def int? (base : Nat) (text : List Char) : Option Int := do
  let (negative, digits) := splitSign text
  let size ← natOfDigits? base digits
  some (if negative then -size else size)

/-- A natural number that fits into 64 bits. -/
def word? (base : Nat) (text : List Char) : Option UInt64 := do
  let size ← nat? base text
  if size < twoPow 64 then some (.ofNat size) else none

/-- Whether an integer fits into 64 bits, one of them for the sign. -/
def fitsSigned (value : Int) : Bool :=
  -(twoPow 63 : Int) ≤ value && value < (twoPow 63 : Int)

/-- An integer that fits into 64 bits, one of them for the sign. -/
def signed? (base : Nat) (text : List Char) : Option Int := (int? base text).filter fitsSigned

/-- The words for what is no finite number, in any case of letters. -/
def special? (negative : Bool) (word : List Char) : Option Binary64 :=
  let word := word.map Char.toLower
  if word = "inf".toList ∨ word = "infinity".toList then some (.infinite negative)
  else if word = "nan".toList then some .nan
  else none

/-- The exponent behind the digits, or zero if there is none. -/
def exponent? : List Char → Option Int
  | [] => some 0
  | c :: rest => if c == 'e' || c == 'E' then int? 10 rest else none

/-- A decimal fraction: digits, of which some may stand behind a point, and an exponent. -/
def fraction? (negative : Bool) (text : List Char) : Option Binary64 := do
  let (whole, rest) := splitWhile isDigit text
  let (places, rest) := match rest with
    | '.' :: rest => splitWhile isDigit rest
    | rest => ([], rest)
  let digits ← natOfDigits? 10 (whole ++ places)
  let exponent ← exponent? rest
  some (.ofDecimal negative digits (exponent - places.length))

/-- A floating point number: a decimal fraction or a word, with an optional sign. -/
def float? (text : List Char) : Option Binary64 :=
  let (negative, size) := splitSign text
  (special? negative size).orElse fun _ => fraction? negative size

end Throttle.Number
