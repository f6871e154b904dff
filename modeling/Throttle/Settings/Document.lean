import Throttle.Number.Literal
import Throttle.Settings.Fault
import Throttle.Settings.Given
import Throttle.Yaml.Document

/-!
# Settings in a document

Reading settings from a YAML document. What is missing has its default, and what is unknown is
ignored. Every value has to be of its type: there is no conversion from text, from a truth value or
from a fraction. A document is read from front to back and the first fault is the one that is told,
but a text that is no document at all is refused before anything is read.

## Main definitions

* `Found.ofPlain` — what a scalar without quotes means.
* `Settings.ofDocument` — the settings in a document.
* `Settings.ofYaml` — the settings in a text.
-/

namespace Throttle

open Yaml (Document Node ScalarStyle)

/-! ## Scalars -/

/-- Whether digits are no number because they start with a zero. -/
def hasLeadingZero (text : List Char) : Bool :=
  match (Number.splitSign text).2 with
  | '0' :: c :: digits => (c :: digits).all Number.isDigit
  | _ => false

/-- The base of a number and its digits, which are hexadecimal, octal or binary behind a zero and a
letter, and decimal else. -/
def splitBase : List Char → Nat × List Char
  | '0' :: 'x' :: digits => (16, digits)
  | '0' :: 'o' :: digits => (8, digits)
  | '0' :: 'b' :: digits => (2, digits)
  | digits => (10, digits)

/-- The natural number that a scalar means. -/
def naturalOfPlain? (text : List Char) : Option Nat :=
  let size := match text with
    | '+' :: size => size
    | size => size
  let (base, digits) := splitBase size
  if hasLeadingZero text then none else Number.natOfDigits? base digits

/-- The negative number, or zero, that a scalar with a minus sign means. -/
def negativeOfPlain? : List Char → Option Int
  | '-' :: size => do
    let (base, digits) := splitBase size
    if hasLeadingZero size then none
    else
      let size ← Number.natOfDigits? base digits
      some (-size)
  | _ => none

/-- The integer that a scalar means. It has at most 128 bits. -/
def Found.integerOfPlain? (text : List Char) : Option Found :=
  match naturalOfPlain? text, negativeOfPlain? text with
  | some size, _ =>
    if size < Number.twoPow 64 then some (integer size)
    else if size < Number.twoPow 128 then some (wideInteger size)
    else none
  | none, some value =>
    if -(Number.twoPow 63 : Int) ≤ value then some (integer value)
    else if -(Number.twoPow 127 : Int) ≤ value then some (wideInteger value)
    else none
  | none, none => none

/-- The truth value that a scalar means. -/
def booleanOfPlain? (text : List Char) : Option Bool :=
  let text := String.ofList text
  if ["true", "True", "TRUE"].contains text then some true
  else if ["false", "False", "FALSE"].contains text then some false
  else none

/-- Whether a scalar means nothing. -/
def meansNothing (text : List Char) : Bool :=
  ["~", "null", "Null", "NULL"].contains (String.ofList text)

/-- The floating point number that a scalar means. What is too large for one is none. -/
def floatOfPlain? (text : List Char) : Option Number.Binary64 :=
  let word := String.ofList text
  if [".inf", ".Inf", ".INF", "+.inf", "+.Inf", "+.INF"].contains word then some (.infinite false)
  else if ["-.inf", "-.Inf", "-.INF"].contains word then some (.infinite true)
  else if [".nan", ".NaN", ".NAN"].contains word then some .nan
  else match Number.float? text with
    | some (.finite negative mantissa exponent) => some (.finite negative mantissa exponent)
    | _ => none

/-- What a scalar without quotes means. -/
def Found.ofPlain (text : List Char) : Found :=
  if text.isEmpty || meansNothing text then nothing
  else match booleanOfPlain? text with
    | some value => boolean value
    | none => match integerOfPlain? text with
      | some found => found
      | none => match floatOfPlain? text with
        | some value => if hasLeadingZero text then .text (.ofList text) else float value
        | none => .text (.ofList text)

/-! ## Faults -/

/-- The tag of a scalar, as a text. -/
def tagText (tag : Option Yaml.TagName) : Option String :=
  tag.map fun tag => String.ofList (tag.handle ++ tag.suffix)

/-- What a scalar with a tag means, or the type that it cannot be read as. -/
def Found.ofTagged (tag : String) (style : ScalarStyle) (text : List Char) : Except String Found :=
  if tag = "tag:yaml.org,2002:bool" then
    ((booleanOfPlain? text).map boolean).elim (.error "a boolean") .ok
  else if tag = "tag:yaml.org,2002:int" then
    (integerOfPlain? text).elim (.error "an integer") .ok
  else if tag = "tag:yaml.org,2002:float" then
    ((floatOfPlain? text).map float).elim (.error "a float") .ok
  else if tag = "tag:yaml.org,2002:null" then
    if meansNothing text then .ok nothing else .error "null"
  else if tag.startsWith "!" ∧ style = .plain then .ok (ofPlain text)
  else .ok (.text (.ofList text))

/-- The fault of a node that is not what is wanted in its place. -/
def DocumentFault.ofNode (wanted : Wanted) (path : List String) : Node → DocumentFault
  | .sequence _ _ mark => unexpected .sequence wanted path mark
  | .mapping _ _ mark => unexpected .table wanted path mark
  | .reference _ _ => illFormed
  | .scalar text style properties mark =>
    match tagText properties.tag with
    | some tag => match Found.ofTagged tag style text with
      | .ok found => unexpected found wanted path mark
      | .error type => mistagged (.ofList text) type path mark
    | none =>
      unexpected (if style = .plain then .ofPlain text else .text (.ofList text)) wanted path mark

/-! ## Fields -/

/-- The name of the field that a key stands for. -/
def fieldName (document : Document) (path : List String) (key : Node) :
    Except DocumentFault String :=
  match document.resolve? key with
  | some (.scalar text _ _ _) => .ok (.ofList text)
  | some other => .error (.ofNode .fieldName path other)
  | none => .error .illFormed

/-- The step of a path that a key makes: its text, if it is written in its place. -/
def pathStep : Node → String
  | .scalar text _ _ _ => .ofList text
  | _ => "?"

/-- The count in a place. It is a scalar without quotes, or a literal block that is marked as an
integer. -/
def readCount (document : Document) (wanted : Wanted) (path : List String) (node : Node) :
    Except DocumentFault UInt64 :=
  match document.resolve? node with
  | none => .error .illFormed
  | some node =>
    match node with
    | .scalar text style properties _ =>
      let readable := style = .plain ∨
        (style = .literal ∧ tagText properties.tag = some "tag:yaml.org,2002:int")
      match naturalOfPlain? text with
      | some size =>
        if readable ∧ size < Number.twoPow 64 then .ok (.ofNat size)
        else .error (.ofNode wanted path node)
      | none => .error (.ofNode wanted path node)
    | _ => .error (.ofNode wanted path node)

/-- The entries of the mapping in a place, with its mark. A place that is left empty holds none. -/
def readEntries (document : Document) (wanted : Wanted) (path : List String) (node : Node) :
    Except DocumentFault (List (Node × Node) × Mark) :=
  match document.resolve? node with
  | some (.mapping entries _ mark) => .ok (entries, mark)
  | some (.scalar [] .plain _ mark) => .ok ([], mark)
  | some other => .error (.ofNode wanted path other)
  | none => .error .illFormed

/-- Set a field that must not be set yet. -/
def setOnce {α : Type} (field : String) (path : List String) (mark : Mark) (old : Option α)
    (read : Except DocumentFault α) : Except DocumentFault (Option α) :=
  match old with
  | some _ => .error (.repeated field path mark)
  | none => some <$> read

/-! ## Sections -/

/-- One more entry of the section of limiters. -/
def GivenLimiter.addEntry (document : Document) (path : List String) (mark : Mark)
    (given : GivenLimiter) (entry : Node × Node) : Except DocumentFault GivenLimiter := do
  let name ← fieldName document path entry.1
  let inner := path ++ [pathStep entry.1]
  if name = "max_events" then
    let maxEvents ←
      setOnce name path mark given.maxEvents (readCount document .count inner entry.2)
    pure { given with maxEvents }
  else if name = "interval_ms" then
    let intervalMillis ←
      setOnce name path mark given.intervalMillis (readCount document .count inner entry.2)
    pure { given with intervalMillis }
  else if name = "segments" then
    let segments ←
      setOnce name path mark given.segments (readCount document .segmentCount inner entry.2)
    pure { given with segments }
  else pure given

/-- One more entry of the section of the registry. -/
def GivenStore.addEntry (document : Document) (path : List String) (mark : Mark)
    (given : GivenStore) (entry : Node × Node) : Except DocumentFault GivenStore := do
  let name ← fieldName document path entry.1
  let inner := path ++ [pathStep entry.1]
  if name = "cleanup_interval_ms" then
    let cleanupMillis ←
      setOnce name path mark given.cleanupMillis (readCount document .count inner entry.2)
    pure { given with cleanupMillis }
  else pure given

/-- The section of limiters. -/
def readLimiter (document : Document) (path : List String) (node : Node) :
    Except DocumentFault LimiterSettings := do
  let (entries, mark) ← readEntries document .limiterSection path node
  let given ← entries.foldlM (GivenLimiter.addEntry document path mark) {}
  pure given.complete

/-- The section of the registry. -/
def readStore (document : Document) (path : List String) (node : Node) :
    Except DocumentFault StoreSettings := do
  let (entries, mark) ← readEntries document .storeSection path node
  let given ← entries.foldlM (GivenStore.addEntry document path mark) {}
  pure given.complete

/-- One more section. -/
def GivenSections.addEntry (document : Document) (mark : Mark) (given : GivenSections)
    (entry : Node × Node) : Except DocumentFault GivenSections := do
  let name ← fieldName document [] entry.1
  let inner := [pathStep entry.1]
  if name = "limiter" then
    let limiter ← setOnce name [] mark given.limiter (readLimiter document inner entry.2)
    pure { given with limiter }
  else if name = "store" then
    let store ← setOnce name [] mark given.store (readStore document inner entry.2)
    pure { given with store }
  else pure given

namespace Settings

/-- The settings in a document. -/
def ofDocument (document : Document) : Except DocumentFault Settings := do
  match document.root with
  | none => pure {}
  | some root =>
    let (entries, mark) ← readEntries document .sections [] root
    let given ← entries.foldlM (GivenSections.addEntry document mark) {}
    pure given.complete

/-- The settings in a text. -/
def ofYaml (text : String) : Except DocumentFault Settings :=
  match Document.ofText? .strict text.toList with
  | none => .error .illFormed
  | some document => ofDocument document

end Settings

end Throttle
