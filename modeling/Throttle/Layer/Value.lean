import Throttle.Settings.Fault

/-!
# Values in layers

What a source of settings holds, before it is known what it is needed for: scalars, arrays and tables.
Every value remembers the source that it came from; a collection that was only made up to hold a value
has none. The names in a table are compared without regard to the case of ASCII letters, so they are
kept in lower case.

## Main definitions

* `Value` — a value with its origin.
* `Value.assign` — give a name in a table a value: tables are overlaid name by name, anything else is
  replaced.
-/

namespace Throttle.Layer

/-- A value that is no collection. -/
inductive Scalar where
  | nothing
  | boolean (value : Bool)
  /-- An integer of 64 bits, one of them for the sign. -/
  | integer (value : Int)
  | float (value : Number.Binary64)
  | text (value : String)
deriving Repr, DecidableEq

/-- A value with its origin. -/
inductive Value where
  | scalar (value : Scalar) (origin : Option String)
  | array (items : List Value) (origin : Option String)
  | table (entries : List (String × Value)) (origin : Option String)
deriving Repr

/-- A name in lower case. -/
def lowerCase (name : String) : String := String.ofList (name.toList.map Char.toLower)

namespace Scalar

/-- What stands there. -/
def found : Scalar → Found
  | nothing => .nothing
  | boolean value => .boolean value
  | integer value => .integer value
  | float value => .float value
  | text value => .text value

end Scalar

namespace Value

/-- What stands there. -/
def found : Value → Found
  | scalar value _ => value.found
  | array _ _ => .sequence
  | table _ _ => .table

/-- Where it came from. -/
def origin : Value → Option String
  | scalar _ origin | array _ origin | table _ origin => origin

/-- A value that nobody gave. -/
def missing : Value := scalar .nothing none

/-- A table without a name. -/
def emptyTable : Value := table [] none

/-- What a name in a table stands for. -/
def find? (root : Value) (name : String) : Option Value :=
  match root with
  | table entries _ => entries.lookup name
  | _ => none

/-- Replace what a name stands for. -/
def replaceIn (name : String) (value : Value) : List (String × Value) → List (String × Value)
  | [] => [(name, value)]
  | entry :: entries =>
    if entry.1 = name then (name, value) :: entries else entry :: replaceIn name value entries

/-- Replace what a name in a table stands for. What is no table becomes one. -/
def replace (root : Value) (name : String) (value : Value) : Value :=
  match root with
  | table entries origin => table (replaceIn name value entries) origin
  | _ => table [(name, value)] none

/-- The value as a table. What is no table becomes an empty one. -/
def toTable : Value → Value
  | table entries origin => table entries origin
  | _ => emptyTable

mutual

/-- Give a name in a table a value. A table is overlaid over what the name stood for, and anything else
replaces it. -/
def assign (root : Value) (name : String) : Value → Value
  | table entries _ =>
    let target := (root.find? (lowerCase name)).getD emptyTable
    root.toTable.replace (lowerCase name) (assignAll target entries)
  | incoming => root.toTable.replace (lowerCase name) incoming

/-- Give some names in a table their values. -/
def assignAll (root : Value) : List (String × Value) → Value
  | [] => root
  | (name, value) :: entries => assignAll (assign root name value) entries

end

end Value

end Throttle.Layer
