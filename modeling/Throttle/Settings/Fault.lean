import Throttle.Number.Binary64
import Throttle.Settings.Basic
import Throttle.Text.Quoted
import Throttle.Time.SpanText

/-!
# What can be wrong with settings

The causes for which written settings are refused, and their texts. A document is read strictly: every
value has to be of the type that its place wants. Layered settings are read leniently, but even there
not everything is a number.

## Main definitions

* `Found`, `Wanted` — what stood in a place, and what was wanted there.
* `DocumentFault` — why a document holds no settings.
* `LayerFault` — why layered sources hold no settings.
-/

namespace Throttle

/-- What stood in a place of a document. -/
inductive Found where
  | nothing
  | boolean (value : Bool)
  | integer (value : Int)
  /-- An integer that needs more than 64 bits. -/
  | wideInteger (value : Int)
  | float (value : Number.Binary64)
  | text (value : String)
  | sequence
  | table
deriving Repr, DecidableEq

/-- What was wanted in a place. -/
inductive Wanted where
  | count
  | segmentCount
  | limiterSection
  | storeSection
  | sections
  /-- The name of a field, in front of a colon. -/
  | fieldName
deriving Repr, DecidableEq

/-- A place in a document: the line and the column, counted from zero. -/
structure Mark where
  line : Nat
  column : Nat
deriving Repr, DecidableEq, Inhabited

/-- Why a document holds no settings. -/
inductive DocumentFault where
  /-- It is not well formed. -/
  | illFormed
  | unexpected (found : Found) (wanted : Wanted) (path : List String) (mark : Mark)
  /-- A value carries the tag of a type that it cannot be read as. -/
  | mistagged (value type : String) (path : List String) (mark : Mark)
  | repeated (field : String) (path : List String) (mark : Mark)
deriving Repr, DecidableEq

/-- Why layered sources hold no settings. -/
inductive LayerFault where
  | notFound (path : String)
  | unknownFormat (path : String)
  /-- The bytes of a file are no text. -/
  | notText
  | illFormed
  /-- A file holds a single value instead of named ones. -/
  | notATable (found : Found) (file : String)
  | notACount (found : Found) (key : String) (origin : Option String)
  | negative (value : Int) (key : String) (origin : Option String)
  | notASection (found : Found) (wanted : Wanted)
deriving Repr, DecidableEq

namespace Found

/-- What stood there, in words. -/
def describe : Found → String
  | nothing => "unit value"
  | boolean value => "boolean `" ++ toString value ++ "`"
  | integer value => "integer `" ++ toString value ++ "`"
  | wideInteger value =>
    "integer `" ++ toString value ++ (if value < 0 then "` as i128" else "` as u128")
  | float value => "floating point `" ++ value.text true ++ "`"
  | text value => "string " ++ Text.quoted value
  | sequence => "sequence"
  | table => "map"

/-- What a layer holds, in words: integers have a size, and a whole floating point number has no
point. -/
def describeLayered : Found → String
  | integer value => "64-bit integer `" ++ toString value ++ "`"
  | float value => "floating point `" ++ value.text false ++ "`"
  | other => other.describe

end Found

/-- What was wanted, in words. -/
def Wanted.describe : Wanted → String
  | count => "u64"
  | segmentCount => "usize"
  | limiterSection => "struct LimiterConfig"
  | storeSection => "struct StoreConfig"
  | sections => "struct WindmillConfig"
  | fieldName => "field identifier"

namespace DocumentFault

/-- A fault with the path of its place in front and the mark behind. The path of the whole document
and the mark of its very first character are left out. -/
def placed (text : String) (path : List String) (mark : Mark) : String :=
  (if path.isEmpty then "" else ".".intercalate path ++ ": ") ++ text ++
    (if mark.line = 0 ∧ mark.column = 0 then ""
      else " at line " ++ toString (mark.line + 1) ++ " column " ++ toString (mark.column + 1))

/-- The fault in words. -/
def message : DocumentFault → String
  | illFormed => "<syntax>"
  | unexpected found wanted path mark =>
    placed ("invalid type: " ++ found.describe ++ ", expected " ++ wanted.describe) path mark
  | mistagged value type path mark =>
    placed ("invalid value: string " ++ Text.quoted value ++ ", expected " ++ type) path mark
  | repeated field path mark => placed ("duplicate field `" ++ field ++ "`") path mark

end DocumentFault

namespace LayerFault

/-- A fault with its key and its origin behind. -/
def placed (text : String) (key : String) (origin : Option String) : String :=
  text ++ " for key `" ++ key ++ "`" ++
    match origin with
    | none => ""
    | some origin => " in " ++ origin

/-- The fault in words. -/
def message : LayerFault → String
  | notFound path => "configuration file \"" ++ path ++ "\" not found"
  | unknownFormat path =>
    "configuration file \"" ++ path ++ "\" is not of a registered file format"
  | notText => "stream did not contain valid UTF-8"
  | illFormed => "<syntax>"
  | notATable found file =>
    "invalid type: " ++ found.describeLayered ++ ", expected a map in " ++ file ++ " in " ++ file
  | notACount found key origin =>
    placed ("invalid type: " ++ found.describeLayered ++ ", expected an integer") key origin
  | negative value key origin =>
    placed ("invalid type: " ++ (Found.integer value).describeLayered ++
      ", expected an unsigned 64 bit or less integer") key origin
  | notASection found wanted =>
    "invalid type: " ++ found.describe ++ ", expected " ++ wanted.describe

end LayerFault

/-- Why settings are refused. -/
inductive SettingsFault where
  | document (fault : DocumentFault)
  | layers (fault : LayerFault)
  | noCleanupPeriod
  /-- A cause that somebody else has put into words. -/
  | stated (text : String)
deriving Repr, DecidableEq

/-- The fault in words. -/
def SettingsFault.message : SettingsFault → String
  | document fault => "Failed to parse config: " ++ fault.message
  | layers fault => fault.message
  | noCleanupPeriod => "store.cleanup_interval_ms must be greater than zero"
  | stated text => text

end Throttle
