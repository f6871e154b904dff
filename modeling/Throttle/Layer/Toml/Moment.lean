import Throttle.Number.Digits
import Throttle.Number.Powers

/-!
# Dates and times

Dates and times as TOML writes them. They are read for what they say and written in one form: a date
and a time have a `T` between them, and the fraction of a second has no trailing zeros.

## Main definitions

* `Moment` — a date, a time of day, or both.
* `Moment.scan` — a moment in front of a text.
* `Moment.text` — a moment in writing.
-/

namespace Throttle.Layer.Toml

/-- A day of a year. -/
structure Date where
  year : Nat
  month : Nat
  day : Nat
deriving Repr, DecidableEq

/-- A time of day. -/
structure TimeOfDay where
  hour : Nat
  minute : Nat
  second : Nat
  nanosecond : Nat
deriving Repr, DecidableEq

/-- How far local time is ahead of universal time. -/
inductive Offset where
  | universal
  | minutes (ahead : Int)
deriving Repr, DecidableEq

/-- A date, a time of day, or both. -/
structure Moment where
  date : Option Date
  time : Option TimeOfDay
  offset : Option Offset
deriving Repr, DecidableEq

namespace Moment

/-! ## Reading -/

/-- What a reader found, and what follows it. It may find nothing, or something that is ill-formed. -/
inductive Scan (α : Type) where
  | absent
  | illFormed
  | found (value : α) (rest : List Char)

/-- A number of some digits in front of a text. -/
def digits? (count : Nat) (text : List Char) : Option (Nat × List Char) := do
  let digits := text.take count
  if digits.length < count || !digits.all Number.isDigit then none
  else some (← Number.natOfDigits? 10 digits, text.drop count)

/-- A number of some digits that is not too large. -/
def digitsUpTo? (count largest : Nat) (text : List Char) : Option (Nat × List Char) :=
  (digits? count text).filter fun read => read.1 ≤ largest

/-- The text behind a character, if that comes first. -/
def behind? (c : Char) (text : List Char) : Option (List Char) :=
  if text.head? == some c then some text.tail else none

/-- Whether a year has a day more. -/
def isLeap (year : Nat) : Bool := year % 4 == 0 && (year % 100 != 0 || year % 400 == 0)

/-- The number of days in a month. -/
def daysIn (year month : Nat) : Nat :=
  if month = 2 then (if isLeap year then 29 else 28)
  else if [4, 6, 9, 11].contains month then 30
  else 31

/-- The month and the day behind a year. -/
def scanDay? (year : Nat) (text : List Char) : Option (Date × List Char) := do
  let (month, rest) ← digitsUpTo? 2 12 text
  let rest ← behind? '-' rest
  let (day, rest) ← digits? 2 rest
  if month = 0 ∨ day = 0 ∨ daysIn year month < day then none
  else some (⟨year, month, day⟩, rest)

/-- A date: behind a year and a hyphen there has to be the rest of one. -/
def scanDate (text : List Char) : Scan Date :=
  match digits? 4 text with
  | none => .absent
  | some (year, rest) =>
    match behind? '-' rest with
    | none => .absent
    | some rest => match scanDay? year rest with
      | some (date, rest) => .found date rest
      | none => .illFormed

/-- The fraction of a second behind a point, if there is one, in nanoseconds. Further digits are
dropped. -/
def scanFraction (text : List Char) : Nat × List Char :=
  match text with
  | '.' :: rest =>
    let (digits, behind) := Number.splitWhile Number.isDigit rest
    if digits.isEmpty then (0, text)
    else
      let kept := digits.take 9
      ((Number.natOfDigits? 10 kept).getD 0 * Number.tenPow (9 - kept.length), behind)
  | _ => (0, text)

/-- The minute and the second behind an hour. A minute may have a leap second. -/
def scanMinute? (hour : Nat) (text : List Char) : Option (TimeOfDay × List Char) := do
  let (minute, rest) ← digitsUpTo? 2 59 text
  let rest ← behind? ':' rest
  let (second, rest) ← digitsUpTo? 2 60 rest
  let (nanosecond, rest) := scanFraction rest
  some (⟨hour, minute, second, nanosecond⟩, rest)

/-- A time of day: behind an hour and a colon there has to be the rest of one. -/
def scanTime (text : List Char) : Scan TimeOfDay :=
  match digitsUpTo? 2 23 text with
  | none => .absent
  | some (hour, rest) =>
    match behind? ':' rest with
    | none => .absent
    | some rest => match scanMinute? hour rest with
      | some (time, rest) => .found time rest
      | none => .illFormed

/-- An offset. -/
def scanOffset (text : List Char) : Scan Offset :=
  match text with
  | c :: rest =>
    if c == 'Z' || c == 'z' then .found .universal rest
    else if c == '+' || c == '-' then
      let read := do
        let (hours, rest) ← digitsUpTo? 2 23 rest
        let rest ← behind? ':' rest
        let (minutes, rest) ← digitsUpTo? 2 59 rest
        let ahead : Int := 60 * hours + minutes
        some (if c == '-' then -ahead else ahead, rest)
      match read with
      | some (ahead, rest) => .found (.minutes ahead) rest
      | none => .illFormed
    else .absent
  | [] => .absent

/-- The time and the offset that may follow a date. -/
def scanBehindDate (date : Date) (text : List Char) : Scan Moment :=
  let alone : Scan Moment := .found ⟨some date, none, none⟩ text
  match text with
  | c :: rest =>
    if c == 'T' || c == 't' || c == ' ' then
      match scanTime rest with
      | .absent => alone
      | .illFormed => .illFormed
      | .found time rest => match scanOffset rest with
        | .absent => .found ⟨some date, some time, none⟩ rest
        | .illFormed => .illFormed
        | .found offset rest => .found ⟨some date, some time, some offset⟩ rest
    else alone
  | [] => alone

/-- A moment in front of a text. -/
def scan (text : List Char) : Scan Moment :=
  match scanDate text with
  | .illFormed => .illFormed
  | .found date rest => scanBehindDate date rest
  | .absent => match scanTime text with
    | .absent => .absent
    | .illFormed => .illFormed
    | .found time rest => .found ⟨none, some time, none⟩ rest

/-! ## Writing -/

/-- A number with zeros in front. -/
def padded (width n : Nat) : List Char :=
  let digits := Number.decimalDigits n
  List.replicate (width - digits.length) '0' ++ digits

/-- A date in writing. -/
def dateText (date : Date) : List Char :=
  padded 4 date.year ++ '-' :: padded 2 date.month ++ '-' :: padded 2 date.day

/-- A time of day in writing. -/
def timeText (time : TimeOfDay) : List Char :=
  let fraction :=
    if time.nanosecond = 0 then []
    else '.' :: ((padded 9 time.nanosecond).reverse.dropWhile (· == '0')).reverse
  padded 2 time.hour ++ ':' :: padded 2 time.minute ++ ':' :: padded 2 time.second ++ fraction

/-- An offset in writing. -/
def offsetText : Offset → List Char
  | .universal => ['Z']
  | .minutes ahead =>
    (if ahead < 0 then '-' else '+') :: padded 2 (ahead.natAbs / 60) ++
      ':' :: padded 2 (ahead.natAbs % 60)

/-- A moment in writing. -/
def text (moment : Moment) : String :=
  let between := if moment.date.isSome ∧ moment.time.isSome then ['T'] else []
  String.ofList ((moment.date.map dateText).getD [] ++ between ++
    (moment.time.map timeText).getD [] ++ (moment.offset.map offsetText).getD [])

end Moment

end Throttle.Layer.Toml
