import Throttle.Layer.Value
import Throttle.Number.Literal
import Throttle.Yaml.Document

/-!
# Layers in YAML

The value that a YAML document holds. References are followed: one means the node that its anchor
names, as it was when it had been read to its end. A node may be spoiled, by a tag that its text does
not fit or by a reference from within the node itself. A spoiled value is nothing, and a spoiled key is
passed over, so that what follows it becomes the key.

## Main definitions

* `Value.ofPlain?` — what a scalar without quotes means.
* `Value.ofYaml?` — the value in a text.
-/

namespace Throttle.Layer

open Yaml (Document Node ScalarStyle TagName)

/-! ## Scalars -/

/-- The integer that a scalar means: hexadecimal or octal behind a zero and a letter, and decimal
else. -/
def integerOfPlain? : List Char → Option Int
  | '0' :: 'x' :: digits => Number.signed? 16 digits
  | '0' :: 'o' :: digits => Number.signed? 8 digits
  | '+' :: digits => Number.signed? 10 digits
  | digits => Number.signed? 10 digits

/-- Whether a scalar is a word for an infinite number or for none. -/
def isSpecialFloat (text : List Char) : Bool :=
  [".inf", ".Inf", ".INF", "+.inf", "+.Inf", "+.INF", "-.inf", "-.Inf", "-.INF", ".nan", ".NaN",
    ".NAN"].contains (String.ofList text)

/-- The floating point number that a scalar with a digit in it means. -/
def floatOfPlain? (text : List Char) : Option Number.Binary64 :=
  if text.any Number.isDigit then Number.float? text else none

/-- What a scalar without quotes means. The words for numbers that are not finite are well formed, but
no value: they are refused. -/
def Scalar.ofPlain? (text : List Char) : Option Scalar :=
  let word := String.ofList text
  if ["", "~", "null"].contains word then some nothing
  else if ["true", "True", "TRUE"].contains word then some (boolean true)
  else if ["false", "False", "FALSE"].contains word then some (boolean false)
  else if isSpecialFloat text then none
  else match integerOfPlain? text, floatOfPlain? text with
    | some value, _ => some (integer value)
    | none, some value => some (float value)
    | none, none => some (.text word)

/-- A scalar that may be spoiled. -/
inductive Reading where
  | sound (value : Scalar)
  | spoiled
deriving Repr, DecidableEq

/-- A scalar that is spoiled if it is missing. -/
def Reading.ofOption : Option Scalar → Reading
  | some value => sound value
  | none => spoiled

/-- What a scalar without quotes means under a tag. Only the tags of the core types have a meaning. -/
def Reading.ofTagged? (tag : TagName) (text : List Char) : Option Reading :=
  let word := String.ofList text
  let suffix := String.ofList tag.suffix
  if String.ofList tag.handle ≠ "tag:yaml.org,2002:" then some (sound (.text word))
  else if suffix = "bool" then
    some (if word = "true" then sound (.boolean true)
      else if word = "false" then sound (.boolean false)
      else spoiled)
  else if suffix = "int" then some (ofOption ((Number.signed? 10 text).map .integer))
  else if suffix = "float" then
    if isSpecialFloat text then none else some (ofOption ((floatOfPlain? text).map .float))
  else if suffix = "null" then
    some (if word = "~" ∨ word = "null" then sound .nothing else spoiled)
  else some (sound (.text word))

/-- What a scalar means. -/
def Reading.ofScalar? (text : List Char) (style : ScalarStyle) (tag : Option TagName) :
    Option Reading :=
  if style ≠ .plain then some (sound (.text (.ofList text)))
  else match tag with
    | some tag => ofTagged? tag text
    | none => (Scalar.ofPlain? text).map sound

/-! ## Nodes -/

/-- The name that a key stands for. A key is a text or an integer; other keys are refused. -/
def keyName? : Value → Option String
  | .scalar (.text name) _ => some name
  | .scalar (.integer value) _ => some (toString value)
  | _ => none

/-- The nodes with anchors that have been read to their ends. One without a value is spoiled. -/
abbrev Known := List (Nat × Option Value)

/-- Remember the value of a node that has an anchor. -/
def remember (anchor : Option Nat) (value : Option Value) (known : Known) : Known :=
  match anchor with
  | some anchor => (anchor, value) :: known
  | none => known

/-- A mapping on its way: its entries, and a key that waits for its value. -/
structure Pairing where
  entries : List (Value × Value) := []
  waiting : Option Value := none

/-- The next key or value of a mapping. -/
def Pairing.add (pairing : Pairing) (origin : Option String) (value : Option Value) : Pairing :=
  match pairing.waiting, value with
  | none, value => { pairing with waiting := value }
  | some key, value =>
    { entries := pairing.entries ++ [(key, value.getD (.scalar .nothing origin))] }

/-- The table of a mapping. No two keys may be the same text or the same integer. -/
def Pairing.table? (pairing : Pairing) (origin : Option String) : Option Value := do
  let keys := pairing.entries.map fun entry => entry.1.found
  let entries ← pairing.entries.mapM fun entry => do some (← keyName? entry.1, entry.2)
  if keys.Nodup then
    some (.table (entries.foldl (fun entries entry => Value.replaceIn entry.1 entry.2 entries) [])
      origin)
  else none

mutual

/-- The value of a node, if it is not spoiled, and the nodes that are known behind it. -/
def readNode (origin : Option String) : Node → Known → Option (Option Value × Known)
  | .scalar text style properties _, known => do
    let value := match ← Reading.ofScalar? text style properties.tag with
      | .sound value => some (.scalar value origin)
      | .spoiled => none
    some (value, remember properties.anchor value known)
  | .sequence items properties _, known => do
    let (items, known) ← readItems origin items known
    let value := Value.array items origin
    some (value, remember properties.anchor value known)
  | .mapping entries properties _, known => do
    let (pairing, known) ← readEntries origin entries {} known
    let value ← pairing.table? origin
    some (value, remember properties.anchor value known)
  | .reference anchor _, known => some ((known.lookup anchor).join, known)

/-- The values of the items of a sequence. -/
def readItems (origin : Option String) : List Node → Known → Option (List Value × Known)
  | [], known => some ([], known)
  | item :: items, known => do
    let (value, known) ← readNode origin item known
    let (values, known) ← readItems origin items known
    some (value.getD (.scalar .nothing origin) :: values, known)

/-- The entries of a mapping, behind those that have been read. -/
def readEntries (origin : Option String) : List (Node × Node) → Pairing → Known →
    Option (Pairing × Known)
  | [], pairing, known => some (pairing, known)
  | (key, value) :: entries, pairing, known => do
    let (key, known) ← readNode origin key known
    let (value, known) ← readNode origin value known
    readEntries origin entries ((pairing.add origin key).add origin value) known

end

/-- The value in a YAML text. A text without a document is an empty table. -/
def Value.ofYaml? (origin : String) (text : String) : Option Value := do
  let document ← Document.ofText? .layered text.toList
  match document.root with
  | none => some (.table [] origin)
  | some root =>
    let (value, _) ← readNode origin root []
    some (value.getD (.scalar .nothing origin))

end Throttle.Layer
