import Throttle.Layer.Environment
import Throttle.Layer.Path
import Throttle.Settings.Given

/-!
# Settings in layers

Settings from sources that are overlaid: what a later source gives replaces what an earlier one gave,
setting by setting, and what no source gives has its default. Values are converted as far as they can
be: fractions are rounded, truth values and words for them are one and zero, and texts may hold
numerals. A section may also be an array, whose items are the settings of the section in order.

## Main definitions

* `Layer.Value.count` — a value as a count.
* `Settings.ofTable` — the settings in a table.
* `Settings.ofSources` — the settings in sources.
-/

namespace Throttle

namespace Layer

/-- The count that a text means. -/
def countOfText? (text : String) : Option UInt64 :=
  let word := lowerCase text
  if ["true", "on", "yes"].contains word then some 1
  else if ["false", "off", "no"].contains word then some 0
  else Number.word? 10 text.toList

/-- A value as a count, for the setting that `key` names. -/
def Value.count (key : String) (value : Value) : Except LayerFault UInt64 :=
  let refused : Except LayerFault UInt64 := .error (.notACount value.found key value.origin)
  match value with
  | .scalar (.integer value) origin =>
    if value < 0 then .error (.negative value key origin) else .ok (.ofNat value.toNat)
  | .scalar (.float value) _ => .ok (.ofNat value.toCount)
  | .scalar (.boolean value) _ => .ok (if value then 1 else 0)
  | .scalar (.text text) _ => (countOfText? text).elim refused .ok
  | _ => refused

/-- The setting of a section that has a name and a position. -/
def Value.setting (part : Value) (sectionName name : String) (position : Nat) :
    Except LayerFault (Option UInt64) :=
  match part with
  | .table entries _ => match entries.lookup name with
    | some value => some <$> value.count (sectionName ++ "." ++ name)
    | none => .ok none
  | .array items _ => match items[position]? with
    | some value => some <$> value.count (sectionName ++ "[" ++ toString position ++ "]")
    | none => .ok none
  | .scalar _ _ => .ok none

/-- Refuse a section that is no collection. -/
def Value.checkSection (wanted : Wanted) : Value → Except LayerFault Unit
  | .scalar value _ => .error (.notASection value.found wanted)
  | _ => .ok ()

end Layer

open Layer (Value)

/-- The section of limiters in a value. -/
def LimiterSettings.ofValue (value : Value) : Except LayerFault LimiterSettings := do
  value.checkSection .limiterSection
  let maxEvents ← value.setting "limiter" "max_events" 0
  let intervalMillis ← value.setting "limiter" "interval_ms" 1
  let segments ← value.setting "limiter" "segments" 2
  pure (GivenLimiter.complete { maxEvents, intervalMillis, segments })

/-- The section of the registry in a value. -/
def StoreSettings.ofValue (value : Value) : Except LayerFault StoreSettings := do
  value.checkSection .storeSection
  let cleanupMillis ← value.setting "store" "cleanup_interval_ms" 0
  pure (GivenStore.complete { cleanupMillis })

namespace Settings

/-- The settings in a table. -/
def ofTable (root : Value) : Except LayerFault Settings := do
  let limiter ← (root.find? "limiter").mapM LimiterSettings.ofValue
  let store ← (root.find? "store").mapM StoreSettings.ofValue
  pure (GivenSections.complete { limiter, store })

/-- The settings in sources, of which later ones are overlaid over earlier ones. -/
def ofSources (sources : List (List (String × Value))) : Except LayerFault Settings :=
  ofTable (sources.foldl Value.overlay .emptyTable)

end Settings

end Throttle
