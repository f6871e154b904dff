import Throttle.Layer.Toml.Moment
import Throttle.Layer.Value
import Throttle.Number.Literal

/-!
# Literals of TOML

Texts, numbers, truth values and moments. Readers take the text that is left and return what they read
and what follows it, or nothing if the text is ill-formed. Their loops take fuel: every round goes over
at least one character.

## Main definitions

* `quoted?` — a text between quotes of any kind.
* `number?` — an integer or a floating point number.
* `literal?` — any literal.
-/

namespace Throttle.Layer.Toml

open Number (Binary64)

/-! ## Characters -/

/-- A blank within a line. -/
def isBlank (c : Char) : Bool := c == ' ' || c == '\t'

/-- Go over blanks within a line. -/
def skipBlanks (text : List Char) : List Char := text.dropWhile isBlank

/-- A character that may stand in a comment or between single quotes on one line. -/
def isPrintable (c : Char) : Bool :=
  c == '\t' || (decide (0x20 ≤ c.toNat) && decide (c.toNat ≠ 0x7f))

/-- What follows a line break, if one comes first. -/
def newline? : List Char → Option (List Char)
  | '\n' :: rest => some rest
  | '\r' :: '\n' :: rest => some rest
  | _ => none

/-! ## Texts -/

/-- The character that a code of some hexadecimal digits means, and what follows them. -/
def coded? (digits : Nat) (text : List Char) : Option (Char × List Char) := do
  let taken := text.take digits
  if taken.length < digits then none
  else
    let code ← Number.natOfDigits? 16 taken
    if code.isValidChar then some (Char.ofNat code, text.drop digits) else none

/-- The character behind a backslash, and what follows it. -/
def escape? : List Char → Option (Char × List Char)
  | 'b' :: rest => some ('\x08', rest)
  | 't' :: rest => some ('\t', rest)
  | 'n' :: rest => some ('\n', rest)
  | 'f' :: rest => some ('\x0c', rest)
  | 'r' :: rest => some ('\r', rest)
  | '"' :: rest => some ('"', rest)
  | '\\' :: rest => some ('\\', rest)
  | 'u' :: rest => coded? 4 rest
  | 'U' :: rest => coded? 8 rest
  | _ => none

/-- A text on one line, behind its opening quote. Between double quotes, escapes are read. -/
def singleLine? (quote : Char) : Nat → List Char → List Char → Option (List Char × List Char)
  | 0, _, _ => none
  | _, _, [] => none
  | fuel + 1, read, c :: rest =>
    if c == quote then some (read, rest)
    else if c == '\\' && quote == '"' then do
      let (meant, rest) ← escape? rest
      singleLine? quote fuel (read ++ [meant]) rest
    else if isPrintable c then singleLine? quote fuel (read ++ [c]) rest
    else none

/-- Go over blanks and line breaks. -/
def skipSpace : Nat → List Char → List Char
  | 0, text => text
  | fuel + 1, text =>
    match newline? text with
    | some rest => skipSpace fuel rest
    | none => match text with
      | c :: rest => if isBlank c then skipSpace fuel rest else text
      | [] => []

/-- What follows a backslash at the end of a line: the next line that holds more than blanks. -/
def continued? (text : List Char) : Option (List Char) :=
  (newline? (skipBlanks text)).map fun rest => skipSpace rest.length rest

/-- A text on several lines, behind its opening quotes. Up to two quotes may stand in a row; of up to
five at the end the last three close the text. -/
def manyLines? (quote : Char) : Nat → List Char → List Char → Option (List Char × List Char)
  | 0, _, _ => none
  | _, _, [] => none
  | fuel + 1, read, c :: rest =>
    if c == quote then
      let (quotes, behind) := Number.splitWhile (· == quote) rest
      let count := quotes.length + 1
      if count < 3 then manyLines? quote fuel (read ++ List.replicate count quote) behind
      else if 5 < count then none
      else some (read ++ List.replicate (count - 3) quote, behind)
    else if c == '\\' && quote == '"' then
      match escape? rest with
      | some (meant, rest) => manyLines? quote fuel (read ++ [meant]) rest
      | none => (continued? rest).bind fun rest => manyLines? quote fuel read rest
    else match newline? (c :: rest) with
      | some rest => manyLines? quote fuel (read ++ ['\n']) rest
      | none =>
        if isPrintable c then manyLines? quote fuel (read ++ [c]) rest else none

/-- A text between quotes: three of them allow for several lines, and a line break directly behind them
does not count. -/
def quoted? (text : List Char) : Option (List Char × List Char) :=
  match text with
  | quote :: rest =>
    match rest with
    | second :: third :: behind =>
      if second == quote && third == quote then
        let behind := (newline? behind).getD behind
        manyLines? quote (behind.length + 1) [] behind
      else singleLine? quote (rest.length + 1) [] rest
    | _ => singleLine? quote (rest.length + 1) [] rest
  | [] => none

/-- A text between quotes on one line. -/
def quotedLine? (text : List Char) : Option (List Char × List Char) :=
  match text with
  | quote :: rest => singleLine? quote (rest.length + 1) [] rest
  | [] => none

/-! ## Numbers -/

/-- Digits with single underscores between them, and what follows. The underscores are dropped. -/
def digits? (base : Nat) (text : List Char) : Option (List Char × List Char) :=
  let isDigit (c : Char) : Bool := (Number.digitValue? base c).isSome
  let (run, rest) := Number.splitWhile (fun c => isDigit c || c == '_') text
  let rec between : List Char → Bool
    | [] => false
    | [c] => isDigit c
    | c :: next :: more => (isDigit c || isDigit next) && between (next :: more)
  if run.head?.any isDigit && between run then some (run.filter (· != '_'), rest) else none

/-- The digits of a decimal number in front of a point. A zero stands alone. -/
def whole? (text : List Char) : Option (List Char × List Char) :=
  match text with
  | '0' :: rest => some (['0'], rest)
  | text => digits? 10 text

/-- The digits behind a point and an exponent, or one of them, if there are any. -/
def fraction? (text : List Char) : Option (List Char × List Char × List Char) := do
  let (places, rest) ← match text with
    | '.' :: rest => digits? 10 rest
    | rest => some ([], rest)
  match rest with
  | c :: behind =>
    if c == 'e' || c == 'E' then do
      let (sign, behind) := match behind with
        | '-' :: behind => (['-'], behind)
        | '+' :: behind => ([], behind)
        | behind => ([], behind)
      let (digits, rest) ← digits? 10 behind
      some (places, sign ++ digits, rest)
    else some (places, [], c :: behind)
  | [] => some (places, [], [])

/-- A number with a letter for its base. -/
def based? (base : Nat) (text : List Char) : Option (Scalar × List Char) := do
  let (digits, rest) ← digits? base text
  some (.integer (← Number.signed? base digits), rest)

/-- A word for a number that is not finite. -/
def special? (negative : Bool) : List Char → Option (Scalar × List Char)
  | 'i' :: 'n' :: 'f' :: rest => some (.float (.infinite negative), rest)
  | 'n' :: 'a' :: 'n' :: rest => some (.float .nan, rest)
  | _ => none

/-- A decimal number behind its sign. A positive floating point number may not be too large. -/
def decimal? (negative : Bool) (text : List Char) : Option (Scalar × List Char) := do
  let (whole, rest) ← whole? text
  let (places, exponent, behind) ← fraction? rest
  let sign := if negative then ['-'] else []
  if places.isEmpty && exponent.isEmpty then
    some (.integer (← Number.signed? 10 (sign ++ whole)), behind)
  else
    let exponent ← if exponent.isEmpty then some 0 else Number.int? 10 exponent
    let size ← Number.natOfDigits? 10 (whole ++ places)
    let value := Binary64.ofDecimal negative size (exponent - places.length)
    if value = .infinite false then none else some (.float value, behind)

/-- An integer or a floating point number. -/
def number? (text : List Char) : Option (Scalar × List Char) :=
  match text with
  | '0' :: 'x' :: rest => based? 16 rest
  | '0' :: 'o' :: rest => based? 8 rest
  | '0' :: 'b' :: rest => based? 2 rest
  | _ =>
    let (negative, size) := Number.splitSign text
    (special? negative size).orElse fun _ => decimal? negative size

/-! ## All literals -/

/-- A literal. -/
def literal? (text : List Char) : Option (Scalar × List Char) :=
  match text with
  | '"' :: _ | '\'' :: _ => (quoted? text).map fun read => (.text (.ofList read.1), read.2)
  | 't' :: 'r' :: 'u' :: 'e' :: rest => some (.boolean true, rest)
  | 'f' :: 'a' :: 'l' :: 's' :: 'e' :: rest => some (.boolean false, rest)
  | _ =>
    match Moment.scan text with
    | .found moment rest => some (.text moment.text, rest)
    | .illFormed => none
    | .absent => number? text

end Throttle.Layer.Toml
