import Throttle.Layer.Toml.Literal
import Throttle.Layer.Toml.Table

/-!
# Layers in TOML

The value that a TOML text holds: a table, built up line by line. Readers take the text that is left
and return what they read and what follows it, or nothing if the text is ill-formed. The fuel bounds
the number of rounds, each of which goes over a character.

## Main definitions

* `Toml.value?` — a value: a literal, an array or a table in braces.
* `Toml.lines?` — the lines of a text.
* `Value.ofToml?` — the value in a text.
-/

namespace Throttle.Layer.Toml

/-! ## Keys -/

/-- A character of a key without quotes. -/
def isKeyChar (c : Char) : Bool := c.isAlphanum || c == '_' || c == '-'

/-- A key without a point. -/
def simpleKey? (text : List Char) : Option (String × List Char) :=
  match text with
  | '"' :: _ | '\'' :: _ => (quotedLine? text).map fun read => (.ofList read.1, read.2)
  | text =>
    let (name, rest) := Number.splitWhile isKeyChar text
    if name.isEmpty then none else some (.ofList name, rest)

/-- A key as the names that lead to its last one, that one, and what follows. Blanks may stand around
the points and on both sides. -/
def key? : Nat → List Char → Option (List String × String × List Char)
  | 0, _ => none
  | fuel + 1, text => do
    let (name, rest) ← simpleKey? (skipBlanks text)
    match skipBlanks rest with
    | '.' :: rest => do
      let (path, last, rest) ← key? fuel rest
      some (name :: path, last, rest)
    | rest => some ([], name, rest)

/-- A key and the sign behind it. -/
def keyAndSign? (text : List Char) : Option (List String × String × List Char) := do
  let (path, name, rest) ← key? (text.length + 1) text
  match rest with
  | '=' :: rest => some (path, name, skipBlanks rest)
  | _ => none

/-! ## Gaps -/

/-- Go over a comment, if there is one. -/
def skipComment? (text : List Char) : Option (List Char) :=
  match text with
  | '#' :: rest =>
    let rest := rest.dropWhile isPrintable
    if rest.isEmpty || (newline? rest).isSome then some rest else none
  | text => some text

/-- Go over blanks, comments and line breaks. -/
def skipGap? : Nat → List Char → Option (List Char)
  | 0, text => some text
  | fuel + 1, text =>
    match text with
    | '#' :: _ => (skipComment? text).bind (skipGap? fuel)
    | c :: rest =>
      if isBlank c then skipGap? fuel rest
      else match newline? text with
        | some rest => skipGap? fuel rest
        | none => some text
    | [] => some []

/-! ## Values -/

mutual

/-- A value, in arrays and tables that may be `depth` deep. -/
def value? (origin : String) : Nat → Nat → List Char → Option (Value × List Char)
  | 0, _, _ => none
  | fuel + 1, depth, text =>
    match text with
    | '[' :: rest =>
      match depth with
      | 0 => none
      | depth + 1 => do
        let (items, rest) ← items? origin fuel depth rest
        some (.array items origin, rest)
    | '\x7b' :: rest =>
      match depth with
      | 0 => none
      | depth + 1 => do
        match skipBlanks rest with
        | '\x7d' :: rest => some (.table [] origin, rest)
        | rest => do
          let (table, rest) ← entries? origin fuel depth rest []
          some (.table (entryValues origin table) origin, rest)
    | text => do
      let (literal, rest) ← literal? text
      some (.scalar literal origin, rest)

/-- The items of an array up to its closing bracket. A comma may stand behind the last one. -/
def items? (origin : String) : Nat → Nat → List Char → Option (List Value × List Char)
  | 0, _, _ => none
  | fuel + 1, depth, text => do
    match ← skipGap? text.length text with
    | ']' :: rest => some ([], rest)
    | text =>
      let (item, rest) ← value? origin fuel depth text
      match ← skipGap? rest.length rest with
      | ',' :: rest => do
        let (items, rest) ← items? origin fuel depth rest
        some (item :: items, rest)
      | ']' :: rest => some ([item], rest)
      | _ => none

/-- The entries of a table in braces up to the closing one, behind those that have been read; there is
at least one more. -/
def entries? (origin : String) : Nat → Nat → List Char → Table → Option (Table × List Char)
  | 0, _, _, _ => none
  | fuel + 1, depth, text, table => do
    let (path, name, rest) ← keyAndSign? text
    let (value, rest) ← value? origin fuel depth rest
    let table ← table.addEntry? path name value
    match skipBlanks rest with
    | ',' :: rest => entries? origin fuel depth rest table
    | '\x7d' :: rest => some (table, rest)
    | _ => none

end

/-! ## Lines -/

/-- How deep arrays and tables in braces may be nested. -/
def deepest : Nat := 79

/-- The header of a table behind its opening bracket, or behind both of them. -/
def header? (several : Bool) (text : List Char) : Option (Header × List Char) := do
  let (path, name, rest) ← key? (text.length + 1) text
  match several, rest with
  | false, ']' :: rest => some ({ path, name, several }, rest)
  | true, ']' :: ']' :: rest => some ({ path, name, several }, rest)
  | _, _ => none

/-- What stands on a line in front of a comment: nothing, a header or an entry. -/
def statement? (origin : String) (builder : Builder) (text : List Char) :
    Option (Builder × List Char) :=
  match text with
  | [] => some (builder, [])
  | '[' :: '[' :: rest => do
    let (header, rest) ← header? true rest
    some (← builder.start? header, rest)
  | '[' :: rest => do
    let (header, rest) ← header? false rest
    some (← builder.start? header, rest)
  | c :: rest =>
    if c == '#' || (newline? (c :: rest)).isSome then some (builder, c :: rest)
    else do
      let (path, name, rest) ← keyAndSign? (c :: rest)
      let (value, rest) ← value? origin (2 * rest.length + 2) deepest rest
      some (← builder.addEntry? path name value, rest)

/-- The lines of a text. -/
def lines? (origin : String) : Nat → Builder → List Char → Option Builder
  | 0, _, _ => none
  | fuel + 1, builder, text => do
    let (builder, rest) ← statement? origin builder (skipBlanks text)
    let rest ← skipComment? (skipBlanks rest)
    if rest.isEmpty then some builder
    else lines? origin fuel builder (← newline? rest)

/-- A text without the byte order mark in front of it. -/
def dropByteOrderMark : List Char → List Char
  | '\ufeff' :: text => text
  | text => text

end Toml

/-- The value in a TOML text. -/
def Value.ofToml? (origin : String) (text : String) : Option Value := do
  let text := Toml.dropByteOrderMark text.toList
  let builder ← Toml.lines? origin (text.length + 1) {} text
  some (.table (Toml.entryValues origin (← builder.close?)) origin)

end Throttle.Layer
