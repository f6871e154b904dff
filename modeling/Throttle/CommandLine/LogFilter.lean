import Throttle.Number.Literal
import Throttle.Text.Blank
import Throttle.Text.Letters
import Throttle.Text.Pieces

/-!
# Log filters

A log filter says which events are logged. It is a list of directives with commas in between; a directive
is a target, a span in brackets with fields in braces, or both, and a level behind an equals sign. A
level or a target may also stand alone.

The program checks a filter before it does anything else.

## Main definitions

* `LogFault` — why a filter is refused.
* `LogFilter.check` — whether a filter is well-formed.
-/

namespace Throttle.CommandLine

/-- Why a log filter is refused. -/
inductive LogFault where
  | unknownLevel
  | illFormed
  /-- A part of a directive would begin or end within a character. -/
  | torn
deriving Repr, DecidableEq

/-- The fault in words. -/
def LogFault.message : LogFault → String
  | unknownLevel =>
    "error parsing level filter: expected one of \"off\", \"error\", \"warn\", \"info\", " ++
      "\"debug\", \"trace\", or a number 0-5"
  | illFormed => "invalid filter directive"
  | torn => "a filter directive is torn within a character"

namespace LogFilter

/-- The words for levels. -/
def levelWords : List String := ["off", "error", "warn", "info", "debug", "trace"]

/-- Whether a text is a level: a word in any case of letters, a number up to five, or nothing. -/
def isLevel (text : List Char) : Bool :=
  match Number.word? 10 text with
  | some number => number ≤ 5
  | none => text.isEmpty || levelWords.contains (String.ofList (text.map Char.toLower))

/-- The text behind so many of its bytes, if a character ends there. -/
def dropBytes? : Nat → List Char → Option (List Char)
  | 0, text => some text
  | _ + 1, [] => none
  | bytes, c :: text => if c.utf8Size ≤ bytes then dropBytes? (bytes - c.utf8Size) text else none

/-- The text behind so many of its bytes. -/
def dropBytes (bytes : Nat) (text : List Char) : Except LogFault (List Char) :=
  match dropBytes? bytes text with
  | some rest => .ok rest
  | none => .error .torn

/-- The part of a directive that the next character belongs to. Some parts remember at which byte they
began. -/
inductive Part where
  | start
  | target
  | span (first : Nat)
  | field (first : Nat)
  /-- Behind the fields of a span. -/
  | fields
  /-- Behind a span. -/
  | spanEnd
  | level (first : Nat)
deriving Repr, DecidableEq

/-- Whether a target can begin with a character. -/
def opensTarget (c : Char) : Bool := c == '-' || c == ':' || c == '_' || Text.isWordChar c

/-- The part behind the character `c`, which stands at the byte `index`. A part that ends here is cut out of
the directive `text`. -/
def Part.next (part : Part) (text : List Char) (index : Nat) (c : Char) : Except LogFault Part :=
  let cut (first : Nat) (next : Part) : Except LogFault Part := do
    let _ ← dropBytes first text
    let _ ← dropBytes index text
    pure next
  match part, c with
  | .start, '[' => .ok (.span (index + 1))
  | .start, c => if opensTarget c then .ok .target else .error .illFormed
  | .target, '=' => cut 0 (.level (index + 1))
  | .target, '[' => cut 0 (.span (index + 1))
  | .span first, ']' => cut first .spanEnd
  | .span first, '\x7b' => cut first (.field (index + 1))
  | .field first, '\x7d' => do
    let next ← cut first .fields
    if first = index then .error .illFormed else pure next
  | .fields, ']' => .ok .spanEnd
  | .spanEnd, '=' => .ok (.level (index + 1))
  | .fields, _ | .spanEnd, _ => .error .illFormed
  | part, _ => .ok part

/-- The part that is left open by characters, the first of which stands at the byte `index`. -/
def Part.after (text : List Char) : Part → Nat → List Char → Except LogFault Part
  | part, _, [] => .ok part
  | part, index, c :: rest => do
    after text (← part.next text index c) (index + c.utf8Size) rest

/-- Whether a directive is well-formed. Its parts are told apart without the blanks around it, and cut out
at the same bytes of the text with those blanks. -/
def checkDirective (text : List Char) : Except LogFault Unit := do
  match ← Part.after text .start 0 (Text.trim text) with
  | .target | .spanEnd => pure ()
  | .level first =>
    let level ← dropBytes first text
    if isLevel level then pure () else .error .unknownLevel
  | _ => .error .illFormed

/-- Whether a filter is well-formed. Nothing may stand between two commas. -/
def check (text : String) : Except LogFault Unit :=
  ((Text.pieces ',' text.toList).filter fun directive => !directive.isEmpty).forM checkDirective

/-- Check the filter of the environment and the one among the arguments. The latter counts if the former is
missing or refused. -/
def checkAny (environment : Option String) (argument : String) : Except LogFault Unit :=
  match environment.map check with
  | some (.ok ()) => .ok ()
  | some (.error .torn) => .error .torn
  | _ => check argument

end LogFilter

end Throttle.CommandLine
