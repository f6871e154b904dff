import Throttle.Layer.Value

/-!
# Tables of TOML

The tables that a TOML text builds up. A table is stated once: by its own header, by dotted keys in the
table around it, or as a value. A table that so far was only passed through on the way to another one
may still be stated by a header.

## Main definitions

* `Item` — what a name in a table stands for.
* `Table.within?` — change a table that a path leads to.
* `Builder` — the tables so far and the one whose entries are being read.
-/

namespace Throttle.Layer.Toml

/-- How a table came about. -/
inductive Statement where
  /-- By a header of its own, or as the outermost table. -/
  | header
  /-- By dotted keys. -/
  | dotted
  /-- By being passed through. -/
  | passed
deriving Repr, DecidableEq

/-- What a name in a table stands for. -/
inductive Item where
  | value (value : Value)
  | table (statement : Statement) (entries : List (String × Item))
  /-- Tables with one header for each; the last one is open. There is at least one. -/
  | tables (items : List (List (String × Item)))
deriving Repr

/-- The entries of a table. -/
abbrev Table := List (String × Item)

namespace Table

/-- Replace what a name stands for. -/
def set (name : String) (item : Item) : Table → Table
  | [] => [(name, item)]
  | entry :: entries =>
    if entry.1 = name then (name, item) :: entries else entry :: set name item entries

/-- Change a table that a path leads to. Tables on the way are made up as needed, stated as `statement`
says. With dotted keys one may not enter a table that has a header of its own. The change is told how
the table came about. -/
def within? (statement : Statement) (change : Statement → Table → Option Table) :
    List String → Statement → Table → Option Table
  | [], current, table => change current table
  | name :: path, _, table =>
    match table.lookup name with
    | none => do
      let inner ← within? statement change path statement []
      some (table.set name (.table statement inner))
    | some (.value _) => none
    | some (.table current entries) =>
      if statement = .dotted ∧ current = .header then none
      else do
        let inner ← within? statement change path current entries
        some (table.set name (.table current inner))
    | some (.tables items) => do
      let last ← items.getLast?
      let inner ← within? statement change path .header last
      some (table.set name (.tables (items.dropLast ++ [inner])))

/-- Add an entry with a dotted key. The tables that the key leads through belong to it alone. -/
def addEntry? (path : List String) (name : String) (value : Value) (table : Table) : Option Table :=
  let change (current : Statement) (table : Table) : Option Table :=
    if (current ≠ .dotted ∧ path ≠ []) ∨ (table.lookup name).isSome then none
    else some (table.set name (.value value))
  within? .dotted change path .header table

end Table

mutual

/-- What an item holds. -/
def Item.toValue (origin : String) : Item → Value
  | .value value => value
  | .table _ entries => .table (entryValues origin entries) origin
  | .tables items => .array (tableValues origin items) origin

/-- What the names in a table stand for. -/
def entryValues (origin : String) : List (String × Item) → List (String × Value)
  | [] => []
  | (name, item) :: entries => (name, item.toValue origin) :: entryValues origin entries

/-- What some tables hold. -/
def tableValues (origin : String) : List (List (String × Item)) → List Value
  | [] => []
  | entries :: items => .table (entryValues origin entries) origin :: tableValues origin items

end

/-! ## Building up tables -/

/-- A header: the path of the table, and whether it is one of several. -/
structure Header where
  path : List String
  name : String
  several : Bool
deriving Repr, DecidableEq

/-- The tables so far, without the entries that are being read. -/
structure Builder where
  root : Table := []
  /-- The header of the table whose entries are being read, unless that is the outermost table. -/
  header : Option Header := none
  entries : Table := []

namespace Builder

/-- Put the entries that have been read in their place. -/
def close? (builder : Builder) : Option Table :=
  match builder.header with
  | none => some builder.entries
  | some header =>
    let change (_ : Statement) (table : Table) : Option Table :=
      match table.lookup header.name, header.several with
      | some (.tables items), true => some (table.set header.name (.tables (items ++ [builder.entries])))
      | none, true => some (table.set header.name (.tables [builder.entries]))
      | some (.table .header _), false | some (.value _), _ | some (.tables _), false => none
      | some (.table _ _), true => none
      | _, false => some (table.set header.name (.table .header builder.entries))
    Table.within? .passed change header.path .header builder.root

/-- What the name of a header stands for so far. -/
def standing? (header : Header) (root : Table) : Option (Option Item) :=
  match header.path with
  | [] => some (root.lookup header.name)
  | path => do
    let mut table := root
    for name in path do
      match table.lookup name with
      | none => table := []
      | some (.table _ entries) => table := entries
      | some (.tables items) => table := items.getLast?.getD []
      | some (.value _) => none
    some (table.lookup header.name)

/-- Start the table of a header. A table that was only passed through keeps what it holds. -/
def start? (builder : Builder) (header : Header) : Option Builder := do
  let root ← builder.close?
  match ← standing? header root, header.several with
  | none, _ => some { root, header }
  | some (.table .passed entries), false =>
    some { root, header, entries }
  | some (.tables _), true => some { root, header }
  | _, _ => none

/-- Add an entry to the table that is being read. -/
def addEntry? (builder : Builder) (path : List String) (name : String) (value : Value) :
    Option Builder := do
  some { builder with entries := ← builder.entries.addEntry? path name value }

end Builder

end Throttle.Layer.Toml
