import Mathlib
import Throttle.Settings.Basic
import Throttle.Settings.Given

/-!
# The names of settings

Every setting is a number, and it goes by two names: that of its section, and that of its field in the section.
What holds of every setting alike is said by way of its name.

## Main definitions

* `SettingName` — the four settings, with `sectionName`, `fieldName` and `defaultNumber`.
* `Settings.number`, `Settings.ofNumbers` — settings as one number for every name.
* `Settings.ofGiven` — the settings of which some are given.
-/

namespace Throttle

/-- What is found at a name: the first entry, if it has this name, else what is found behind it. -/
theorem lookup_cons_eq_ite {α β : Type} [DecidableEq α] (entry : α × β) (entries : List (α × β)) (key : α) :
    (entry :: entries).lookup key = if key = entry.1 then some entry.2 else entries.lookup key := by
  rw [List.lookup_cons]
  by_cases h : key = entry.1
  · rw [if_pos h, beq_iff_eq.mpr h]
  · rw [if_neg h, beq_eq_false_iff_ne.mpr h]

/-- At a name that no entry has, nothing is found. -/
theorem lookup_eq_none_of_ne {α β : Type} [DecidableEq α] {entries : List (α × β)} {key : α}
    (h : ∀ entry ∈ entries, entry.1 ≠ key) : entries.lookup key = none := by
  induction entries with
  | nil => rfl
  | cons entry entries ih =>
    obtain ⟨hentry, hentries⟩ := List.forall_mem_cons.mp h
    rw [lookup_cons_eq_ite, if_neg (Ne.symm hentry), ih hentries]

/-- If no two entries have one name, every entry is found at its name. -/
theorem lookup_eq_some_of_mem {α β : Type} [DecidableEq α] {entries : List (α × β)} {entry : α × β}
    (honce : (entries.map Prod.fst).Nodup) (h : entry ∈ entries) : entries.lookup entry.1 = some entry.2 := by
  induction entries with
  | nil => cases h
  | cons first entries ih =>
    obtain ⟨hfresh, honce⟩ := List.nodup_cons.mp honce
    rw [lookup_cons_eq_ite]
    obtain rfl | hentry := List.mem_cons.mp h
    · rw [if_pos rfl]
    · rw [if_neg fun heq => hfresh (List.mem_map.mpr ⟨entry, hentry, heq⟩), ih honce hentry]

/-- Which setting is meant. -/
inductive SettingName where
  | maxEvents
  | intervalMillis
  | segments
  | cleanupMillis
deriving Repr, DecidableEq

namespace SettingName

/-- The section that a setting is in. -/
def sectionName : SettingName → String
  | maxEvents | intervalMillis | segments => "limiter"
  | cleanupMillis => "store"

/-- The name of a setting in its section. -/
def fieldName : SettingName → String
  | maxEvents => "max_events"
  | intervalMillis => "interval_ms"
  | segments => "segments"
  | cleanupMillis => "cleanup_interval_ms"

/-- What a setting is where nobody gives it. -/
def defaultNumber : SettingName → Nat
  | maxEvents => 100
  | intervalMillis => 1000
  | segments => 10
  | cleanupMillis => 60000

/-- Two settings of one section have different names in it. -/
theorem eq_of_fieldName_eq {name other : SettingName} (h : name.fieldName = other.fieldName) :
    name = other := by
  cases name <;> cases other <;> first | rfl | exact absurd h (by decide)

end SettingName

namespace Settings

/-- The number that a setting is. -/
def number (settings : Settings) : SettingName → UInt64
  | .maxEvents => settings.limiter.maxEvents
  | .intervalMillis => settings.limiter.intervalMillis
  | .segments => settings.limiter.segments
  | .cleanupMillis => settings.store.cleanupMillis

/-- The settings that are the given numbers. -/
def ofNumbers (numbers : SettingName → UInt64) : Settings where
  limiter := ⟨numbers .maxEvents, numbers .intervalMillis, numbers .segments⟩
  store := ⟨numbers .cleanupMillis⟩

@[simp] theorem number_ofNumbers (numbers : SettingName → UInt64) (name : SettingName) :
    (ofNumbers numbers).number name = numbers name := by
  cases name <;> rfl

/-- Settings with the same numbers are the same. -/
theorem eq_of_number_eq {settings other : Settings} (h : ∀ name, settings.number name = other.number name) :
    settings = other := by
  obtain ⟨⟨limit, interval, segments⟩, ⟨pause⟩⟩ := settings
  obtain ⟨⟨limit', interval', segments'⟩, ⟨pause'⟩⟩ := other
  obtain rfl : limit = limit' := h .maxEvents
  obtain rfl : interval = interval' := h .intervalMillis
  obtain rfl : segments = segments' := h .segments
  obtain rfl : pause = pause' := h .cleanupMillis
  rfl

/-- The settings that are given, and the defaults of all others. -/
def ofGiven (given : SettingName → Option UInt64) : Settings :=
  ofNumbers fun name => (given name).getD (({} : Settings).number name)

/-- Where nothing is given, everything has its default. -/
theorem toNat_number_default (name : SettingName) :
    (({} : Settings).number name).toNat = name.defaultNumber := by
  cases name <;> rfl

end Settings

end Throttle
