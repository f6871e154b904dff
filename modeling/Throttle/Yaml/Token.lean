import Throttle.Yaml.Dialect

/-!
# Tokens

What a YAML text is made of. Indentation shows as tokens that open and close blocks.
-/

namespace Throttle.Yaml

/-- How a scalar is written. -/
inductive ScalarStyle where
  | plain
  | quoted
  | literal
  | folded
deriving Repr, DecidableEq

/-- A tag as it is written: a handle and what follows it. A verbatim tag has no handle. -/
structure TagName where
  handle : List Char
  suffix : List Char
deriving Repr, DecidableEq

/-- A token. -/
inductive Token where
  | versionDirective (major minor : Nat)
  | tagDirective (handle value : List Char)
  /-- A directive that means nothing here. -/
  | otherDirective
  | documentStart
  | documentEnd
  | blockSequenceStart
  | blockMappingStart
  | blockEnd
  | flowSequenceStart
  | flowSequenceEnd
  | flowMappingStart
  | flowMappingEnd
  | blockEntry
  | flowEntry
  | key
  | value
  | anchor (name : List Char)
  | reference (name : List Char)
  | tag (name : TagName)
  | scalar (text : List Char) (style : ScalarStyle)
  | streamEnd
deriving Repr, DecidableEq

/-- A token with the marks of its start and its end. -/
structure PlacedToken where
  token : Token
  start : Mark
  stop : Mark
deriving Repr, DecidableEq

end Throttle.Yaml
