import Throttle.Layer.Value
import Throttle.Number.Literal

/-!
# Paths

A name on the outermost level of a source may be a path: names of tables with a point in between, and
indices of arrays in brackets. Whatever stands in the way of a path gives way to it.

## Main definitions

* `Path.ofText?` — a path that is written out.
* `Path.assign` — give a place a value.
-/

namespace Throttle.Layer

/-- A step into a collection. -/
inductive Step where
  | key (name : String)
  /-- The index of an item; a negative one counts from the end. -/
  | index (position : Int)
deriving Repr, DecidableEq

/-- A name and the steps from there on. -/
structure Path where
  name : String
  steps : List Step
deriving Repr, DecidableEq

namespace Path

/-! ## Written paths -/

/-- A character of a name in a path. -/
def isNameChar (c : Char) : Bool := c.isAlphanum || c == '_' || c == '-' || c == ' '

/-- A name and what follows it. -/
def name? (text : List Char) : Option (String × List Char) :=
  let (name, rest) := Number.splitWhile isNameChar text
  if name.isEmpty then none else some (String.ofList name, rest)

/-- A blank around an index. -/
def isBlank (c : Char) : Bool := c == ' ' || c == '\t'

/-- An index with its closing bracket, and what follows it. -/
def index? (text : List Char) : Option (Int × List Char) := do
  let text := text.dropWhile isBlank
  let (sign, text) := if text.head? == some '-' then (['-'], text.tail) else ([], text)
  let (digits, rest) := Number.splitWhile Number.isDigit text
  let position ← Number.signed? 10 (sign ++ digits)
  match rest.dropWhile isBlank with
  | ']' :: rest => some (position, rest)
  | _ => none

/-- The steps of a path. Each one consists of a character at least, which bounds their number. -/
def steps? : Nat → List Char → Option (List Step)
  | _, [] => some []
  | 0, _ => none
  | fuel + 1, '.' :: text => do
    let (name, rest) ← name? text
    some (.key name :: (← steps? fuel rest))
  | fuel + 1, '[' :: text => do
    let (position, rest) ← index? text
    some (.index position :: (← steps? fuel rest))
  | _, _ => none

/-- The path that a text is, if it is one. -/
def ofText? (text : String) : Option Path := do
  let (name, rest) ← name? text.toList
  some ⟨name, ← steps? rest.length rest⟩

/-! ## Places -/

/-- The position that an index means among `length` items. -/
def position? (length : Nat) (index : Int) : Option Nat :=
  if 0 ≤ index then some index.toNat
  else if index.natAbs ≤ length then some (length - index.natAbs)
  else none

/-- Change the item at a position; items are made up to get there. -/
def updateAt (items : List Value) (position : Nat) (f : Value → Value) : List Value :=
  let items := items ++ List.replicate (position + 1 - items.length) Value.missing
  items.modify position f

/-- The items of an array. What is no array becomes an empty one. -/
def toArray : Value → List Value × Option String
  | .array items origin => (items, origin)
  | _ => ([], none)

/-- Change the value in a place of a collection. -/
def update (step : Step) (f : Value → Value) (parent : Value) : Value :=
  match step with
  | .key name =>
    let name := lowerCase name
    parent.toTable.replace name (f ((parent.find? name).getD .missing))
  | .index index =>
    let (items, origin) := toArray parent
    match position? items.length index with
    | some position => .array (updateAt items position f) origin
    | none => .array items origin

/-- Give the place that a step leads to a value: a name is assigned, an item replaced. -/
def assignStep (step : Step) (value parent : Value) : Value :=
  match step with
  | .key name => parent.assign name value
  | .index _ => update step (fun _ => value) parent

/-- Give the place that some steps lead to a value. -/
def assignSteps : Step → List Step → Value → Value → Value
  | step, [], value, parent => assignStep step value parent
  | step, next :: rest, value, parent => update step (assignSteps next rest value) parent

/-- Give a place in a table a value. -/
def assign (path : Path) (value root : Value) : Value :=
  assignSteps (.key path.name) path.steps value root

end Path

/-- Give a name a value, where the name may be a path. -/
def Value.assignNamed (root : Value) (name : String) (value : Value) : Value :=
  match Path.ofText? name with
  | some path => path.assign value root
  | none => root.assign name value

/-- Overlay a source: its names are assigned in their order. -/
def Value.overlay (root : Value) (source : List (String × Value)) : Value :=
  source.foldl (fun root entry => root.assignNamed entry.1 entry.2) root

end Throttle.Layer
