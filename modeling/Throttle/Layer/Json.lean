import Throttle.Layer.Value
import Throttle.Number.Literal

/-!
# Layers in JSON

The value that a JSON text holds. Readers take the text that is left and return a value and what
follows it, or nothing if the text is ill-formed.

A number with 64 bits for its size and its sign is an integer, any other number a floating point one.
Of a fraction, the leading digits that fit into 64 bits count; they are rounded once to a floating
point number, and once more when the power of ten is applied.

## Main definitions

* `Value.ofJson?` — the value in a text.
-/

namespace Throttle.Layer.Json

open Number (Binary64)

/-! ## Blanks -/

/-- A character between the parts of a text. -/
def isBlank (c : Char) : Bool := c == ' ' || c == '\n' || c == '\t' || c == '\r'

/-- Go over blanks. -/
def skipBlanks (text : List Char) : List Char := text.dropWhile isBlank

/-! ## Numbers -/

/-- The digits of a fraction as a whole number, and the power of ten that belongs to it. -/
structure Significand where
  size : Nat
  power : Int
  /-- Whether a digit did not fit any more. -/
  full : Bool
deriving Repr, DecidableEq

namespace Significand

/-- One more digit. A digit that does not fit is dropped with all behind it; in front of the point the
power of ten makes up for that. -/
def add (significand : Significand) (behindPoint : Bool) (digit : Char) : Significand :=
  let size := 10 * significand.size + (digit.toNat - '0'.toNat)
  if significand.full || decide (Number.twoPow 64 ≤ size) then
    { significand with
      full := true, power := if behindPoint then significand.power else significand.power + 1 }
  else
    { significand with
      size, power := if behindPoint then significand.power - 1 else significand.power }

/-- The significand of the digits in front of a point and behind it. The first digit behind the point is
tried again if those in front of it did not fit. -/
def ofDigits (whole places : List Char) : Significand :=
  let front := whole.foldl (Significand.add · false ·) ⟨0, 0, false⟩
  places.foldl (Significand.add · true ·) { front with full := false }

/-- A number that is divided by powers of ten until what is left of the power is in the table. -/
def scaleDown : Nat → Binary64 → Nat → Binary64
  | 0, value, _ => value
  | steps + 1, value, power =>
    if power ≤ 308 then value.overPowerOfTen power
    else scaleDown steps (value.overPowerOfTen 308) (power - 308)

/-- The number, unless it is too large. -/
def number? (significand : Significand) (negative : Bool) : Option Binary64 :=
  let value := Binary64.ofRatio negative significand.size 1
  if 0 ≤ significand.power then
    if significand.size = 0 then some value
    else if 308 < significand.power then none
    else match value.timesPowerOfTen significand.power.toNat with
      | .finite negative mantissa exponent => some (.finite negative mantissa exponent)
      | _ => none
  else some (scaleDown 4 value (-significand.power).toNat)

end Significand

/-- The digits in front of a point. Only a single zero may be in front of other digits. -/
def whole? (text : List Char) : Option (List Char × List Char) :=
  let (digits, rest) := Number.splitWhile Number.isDigit text
  match digits with
  | [] => none
  | '0' :: _ :: _ => none
  | digits => some (digits, rest)

/-- The digits behind a point, if there is one. -/
def places? (text : List Char) : Option (List Char × List Char) :=
  match text with
  | '.' :: text =>
    let (digits, rest) := Number.splitWhile Number.isDigit text
    if digits.isEmpty then none else some (digits, rest)
  | text => some ([], text)

/-- The exponent, if there is one. -/
def exponent? (text : List Char) : Option (Option Int × List Char) :=
  match text with
  | c :: text =>
    if c == 'e' || c == 'E' then do
      let (sign, text) := match text with
        | '-' :: text => (['-'], text)
        | '+' :: text => ([], text)
        | text => ([], text)
      let (digits, rest) := Number.splitWhile Number.isDigit text
      some (some (← Number.int? 10 (sign ++ digits)), rest)
    else some (none, c :: text)
  | [] => some (none, [])

/-- A number. -/
def number? (text : List Char) : Option (Scalar × List Char) := do
  let (negative, text) := match text with
    | '-' :: text => (true, text)
    | text => (false, text)
  let (whole, rest) ← whole? text
  let (places, rest) ← places? rest
  let (exponent, rest) ← exponent? rest
  let size ← Number.natOfDigits? 10 whole
  let value : Int := if negative then -size else size
  if places.isEmpty && exponent.isNone && Number.fitsSigned value && !(negative && size == 0) then
    some (.integer value, rest)
  else
    let significand := Significand.ofDigits whole places
    let scaled := { significand with power := significand.power + exponent.getD 0 }
    let value ← scaled.number? negative
    some (.float value, rest)

/-! ## Texts -/

/-- The code that four hexadecimal digits mean, and what follows them. -/
def code? (text : List Char) : Option (Nat × List Char) := do
  let digits := text.take 4
  if digits.length < 4 then none
  else some (← Number.natOfDigits? 16 digits, text.drop 4)

/-- The character of a code; a code for the first half of a character needs the other half behind
it. -/
def codedChar? (text : List Char) : Option (Char × List Char) := do
  let (code, rest) ← code? text
  if 0xDC00 ≤ code ∧ code ≤ 0xDFFF then none
  else if 0xD800 ≤ code ∧ code ≤ 0xDBFF then
    match rest with
    | '\\' :: 'u' :: rest => do
      let (low, rest) ← code? rest
      if 0xDC00 ≤ low ∧ low ≤ 0xDFFF then
        some (Char.ofNat (0x10000 + (code - 0xD800) * 0x400 + (low - 0xDC00)), rest)
      else none
    | _ => none
  else some (Char.ofNat code, rest)

/-- The character behind a backslash, and what follows it. -/
def escape? : List Char → Option (Char × List Char)
  | '"' :: rest => some ('"', rest)
  | '\\' :: rest => some ('\\', rest)
  | '/' :: rest => some ('/', rest)
  | 'b' :: rest => some ('\x08', rest)
  | 'f' :: rest => some ('\x0c', rest)
  | 'n' :: rest => some ('\n', rest)
  | 'r' :: rest => some ('\r', rest)
  | 't' :: rest => some ('\t', rest)
  | 'u' :: rest => codedChar? rest
  | _ => none

/-- A text behind its opening quote. Every round goes over at least one character. -/
def text? : Nat → List Char → List Char → Option (List Char × List Char)
  | 0, _, _ => none
  | _, _, [] => none
  | fuel + 1, read, c :: rest =>
    if c == '"' then some (read, rest)
    else if c == '\\' then do
      let (meant, rest) ← escape? rest
      text? fuel (read ++ [meant]) rest
    else if c < ' ' then none
    else text? fuel (read ++ [c]) rest

/-! ## Values -/

/-- The word in front of a text, if it is there, and what follows it. -/
def dropWord? (word text : List Char) : Option (List Char) :=
  if word.isPrefixOf text then some (text.drop word.length) else none

mutual

/-- A value, in collections that may be `depth` deep. The fuel bounds the number of rounds, each of which
goes over a character. -/
def value? (origin : String) : Nat → Nat → List Char → Option (Value × List Char)
  | 0, _, _ => none
  | fuel + 1, depth, text =>
    match skipBlanks text with
    | '"' :: rest => do
      let (read, rest) ← text? (rest.length + 1) [] rest
      some (.scalar (.text (.ofList read)) origin, rest)
    | '[' :: rest =>
      match depth with
      | 0 => none
      | depth + 1 =>
        match skipBlanks rest with
        | ']' :: rest => some (.array [] origin, rest)
        | rest => do
          let (items, rest) ← items? origin fuel depth rest
          some (.array items origin, rest)
    | '\x7b' :: rest =>
      match depth with
      | 0 => none
      | depth + 1 =>
        match skipBlanks rest with
        | '\x7d' :: rest => some (.table [] origin, rest)
        | rest => do
          let (entries, rest) ← entries? origin fuel depth rest []
          some (.table entries origin, rest)
    | 'n' :: rest =>
      (dropWord? "ull".toList rest).map fun rest => (.scalar .nothing origin, rest)
    | 't' :: rest =>
      (dropWord? "rue".toList rest).map fun rest => (.scalar (.boolean true) origin, rest)
    | 'f' :: rest =>
      (dropWord? "alse".toList rest).map fun rest => (.scalar (.boolean false) origin, rest)
    | text => do
      let (value, rest) ← number? text
      some (.scalar value origin, rest)

/-- The items of an array up to its closing bracket; there is at least one. -/
def items? (origin : String) : Nat → Nat → List Char → Option (List Value × List Char)
  | 0, _, _ => none
  | fuel + 1, depth, text => do
    let (item, rest) ← value? origin fuel depth text
    match skipBlanks rest with
    | ',' :: rest => do
      let (items, rest) ← items? origin fuel depth rest
      some (item :: items, rest)
    | ']' :: rest => some ([item], rest)
    | _ => none

/-- The entries of an object up to its closing brace, behind those that have been read; there is at
least one more. The last of several entries with one name counts. -/
def entries? (origin : String) : Nat → Nat → List Char → List (String × Value) →
    Option (List (String × Value) × List Char)
  | 0, _, _, _ => none
  | fuel + 1, depth, text, entries =>
    match skipBlanks text with
    | '"' :: rest => do
      let (name, rest) ← text? (rest.length + 1) [] rest
      match skipBlanks rest with
      | ':' :: rest => do
        let (value, rest) ← value? origin fuel depth rest
        let entries := Value.replaceIn (.ofList name) value entries
        match skipBlanks rest with
        | ',' :: rest => entries? origin fuel depth rest entries
        | '\x7d' :: rest => some (entries, rest)
        | _ => none
      | _ => none
    | _ => none

end

/-- How deep collections may be nested. -/
def deepest : Nat := 127

end Json

/-- The value in a JSON text. -/
def Value.ofJson? (origin : String) (text : String) : Option Value := do
  let text := text.toList
  let (value, rest) ← Json.value? origin (2 * text.length + 2) Json.deepest text
  if (Json.skipBlanks rest).isEmpty then some value else none

end Throttle.Layer
