import Throttle.Yaml.Token.Scalar

/-!
# Tokens of a text

Cutting a text into tokens. Two things make that more than a scan. Indentation opens and closes blocks,
so the columns of the open blocks are kept on a stack. And a mapping's key is known as one only when
the colon behind it is found, so a place where a key may have started is kept for each open
collection, and the token that announces the key is inserted there afterwards.

## Main definitions

* `Lexer` — the place in the text, the tokens so far, the open blocks and the possible keys.
* `Lexer.step` — one more token.
* `Token.ofText?` — the tokens of a text, or nothing if it is ill-formed.
-/

namespace Throttle.Yaml

/-- What the indentation goes back to when a level of it ends. -/
structure Outer where
  column : Int
  /-- Whether the level that ends is a block's, so that the block ends with it. -/
  closesBlock : Bool
deriving Repr, DecidableEq

/-- A place where a mapping's key may have started. -/
structure PossibleKey where
  /-- Nothing but a key can stand there. -/
  required : Bool
  /-- The number of tokens in front of it. -/
  position : Nat
  index : Nat
  mark : Mark
deriving Repr, DecidableEq

/-- A text on its way to tokens. -/
structure Lexer where
  cursor : Cursor
  tokens : Array PlacedToken := #[]
  /-- The column of the innermost block, or −1 outside of all blocks. -/
  indent : Int := -1
  outers : List Outer := []
  /-- Whether a key may start here. -/
  keyAllowed : Bool := true
  /-- The possible key of each open flow collection, innermost first, and that of the block around
  them. -/
  keys : List (Option PossibleKey) := [none]
  /-- The index where a colon may follow its key closely. -/
  closeColon : Option Nat := none
deriving Repr, DecidableEq

namespace Lexer

/-- Whether a flow collection is open. -/
def inFlow (lexer : Lexer) : Bool := decide (1 < lexer.keys.length)

/-- Add a token that starts and ends at given marks. -/
def push (lexer : Lexer) (token : Token) (start stop : Mark) : Lexer :=
  { lexer with tokens := lexer.tokens.push ⟨token, start, stop⟩ }

/-- Add a token that reaches from here to `next`, and go there. -/
def advance (lexer : Lexer) (token : Token) (next : Cursor) : Lexer :=
  { lexer.push token lexer.cursor.mark next.mark with cursor := next }

/-- Insert a token behind the first ones. -/
def insertAt (lexer : Lexer) (position : Nat) (token : Token) (mark : Mark) : Lexer :=
  { lexer with
    tokens := (lexer.tokens.extract 0 position).push ⟨token, mark, mark⟩ ++
      lexer.tokens.extract position lexer.tokens.size }

/-! ## Blocks -/

/-- End the levels of indentation that are deeper than a column. -/
def closeLevels (column : Int) (mark : Mark) :
    List Outer → Int → Array PlacedToken → List Outer × Int × Array PlacedToken
  | [], indent, tokens => ([], indent, tokens)
  | outer :: outers, indent, tokens =>
    if column < indent then
      closeLevels column mark outers outer.column
        (if outer.closesBlock then tokens.push ⟨.blockEnd, mark, mark⟩ else tokens)
    else (outer :: outers, indent, tokens)

/-- End the blocks that are deeper than a column. -/
def closeBlocks (lexer : Lexer) (column : Int) : Lexer :=
  if lexer.inFlow then lexer
  else
    let (outers, indent, tokens) :=
      closeLevels column lexer.cursor.mark lexer.outers lexer.indent lexer.tokens
    { lexer with outers, indent, tokens }

/-- The innermost indentation that belongs to a block. -/
def blockIndent : List Outer → Int → List Outer × Int
  | [], indent => ([], indent)
  | outer :: outers, indent =>
    if outer.closesBlock then (outer :: outers, indent) else blockIndent outers outer.column

/-- Forget levels of indentation that belong to no block. -/
def settle (lexer : Lexer) : Lexer :=
  let (outers, indent) := blockIndent lexer.outers lexer.indent
  { lexer with outers, indent }

/-- Open a block at a column, unless one is open there. Its token is inserted behind the first
`position` ones. -/
def openBlock (lexer : Lexer) (column position : Nat) (token : Token) (mark : Mark) : Lexer :=
  if lexer.inFlow then lexer
  else
    let lexer := match lexer.outers with
      | ⟨indent, false⟩ :: outers =>
        if lexer.indent ≤ (column : Int) then { lexer with indent, outers } else lexer
      | _ => lexer
    if lexer.indent < (column : Int) then
      { lexer.insertAt position token mark with
        indent := column, outers := ⟨lexer.indent, true⟩ :: lexer.outers }
    else lexer

/-- What follows in a block has to be indented by one column, at least. -/
def deepen (lexer : Lexer) (dialect : Dialect) : Lexer :=
  match lexer.outers with
  | ⟨_, true⟩ :: _ =>
    if dialect.indentedFlow && !lexer.inFlow then
      { lexer with
        indent := lexer.indent + 1, outers := ⟨lexer.indent, false⟩ :: lexer.outers }
    else lexer
  | _ => lexer

/-! ## Possible keys -/

/-- Nothing started here becomes a key any more. It is an error if it had to. -/
def dropKey (lexer : Lexer) : Option Lexer :=
  match lexer.keys with
  | some key :: keys => if key.required then none else some { lexer with keys := none :: keys }
  | _ => some lexer

/-- What starts here may become a key. -/
def saveKey (lexer : Lexer) : Option Lexer :=
  if !lexer.keyAllowed then some lexer
  else do
    let lexer ← lexer.dropKey
    let key : PossibleKey := {
      required := !lexer.inFlow && lexer.indent == lexer.cursor.column &&
        (lexer.outers.head?.map Outer.closesBlock).getD false
      position := lexer.tokens.size
      index := lexer.cursor.index
      mark := lexer.cursor.mark }
    some { lexer with keys := some key :: lexer.keys.tail }

/-- Whether a possible key is too far away to become one: keys are on one line and of limited
length. -/
def PossibleKey.stale (key : PossibleKey) (cursor : Cursor) : Bool :=
  decide (key.mark.line < cursor.line) || decide (key.index + 1024 < cursor.index)

/-- Drop the possible keys that are too far away. -/
def dropStaleKeys (lexer : Lexer) (dialect : Dialect) : Option Lexer :=
  if dialect.indentedFlow && lexer.inFlow then some lexer
  else do
    let keys ← lexer.keys.mapM fun key? =>
      match key? with
      | none => some none
      | some key =>
        if !PossibleKey.stale key lexer.cursor then some (some key)
        else if key.required then none
        else some none
    some { lexer with keys }

/-! ## Between tokens -/

/-- Go over blanks, comments and line breaks. A line break lets a key start, in a block. -/
def skipGap (dialect : Dialect) : Nat → Bool → Lexer → Option Lexer
  | 0, _, lexer => some lexer
  | fuel + 1, leading, lexer =>
    let cursor := lexer.cursor
    let onward (next : Cursor) : Lexer := { lexer with cursor := next }
    match cursor.rest with
    | [] => some lexer
    | c :: _ =>
      if c == ' ' || (c == '\ufeff' && dialect.byteOrderMarks && cursor.column == 0) then
        skipGap dialect fuel leading (onward cursor.skip)
      else if c == '\t' then
        if dialect.blankTabs then
          if leading && !lexer.outers.isEmpty && decide (cursor.column < lexer.indent) then
            (skipTab dialect cursor).bind fun next => skipGap dialect fuel leading (onward next)
          else skipGap dialect fuel leading (onward cursor.skip)
        else if lexer.inFlow || !lexer.keyAllowed then
          skipGap dialect fuel leading (onward cursor.skip)
        else some lexer
      else if c == '#' then skipGap dialect fuel leading (onward (cursor.skipLine dialect))
      else if dialect.isBreak c then
        skipGap dialect fuel true
          { onward cursor.splitBreak.2 with keyAllowed := lexer.keyAllowed || !lexer.inFlow }
      else some lexer

/-! ## Collections -/

/-- The start of a flow collection, which may be a key. -/
def openFlow (lexer : Lexer) (dialect : Dialect) (token : Token) : Option Lexer := do
  let lexer := (← lexer.saveKey).deepen dialect
  let next ← lexer.cursor.skip.skipTrailer dialect
  let lexer := lexer.advance token next
  some { lexer with keys := none :: lexer.keys, keyAllowed := true }

/-- The end of a flow collection. -/
def closeFlow (lexer : Lexer) (dialect : Dialect) (token : Token) : Option Lexer := do
  let lexer ← lexer.dropKey
  let next ← lexer.cursor.skip.skipTrailer dialect
  let lexer := lexer.advance token next
  let keys := if lexer.inFlow then lexer.keys.tail else lexer.keys
  some { lexer with keys, keyAllowed := false, closeColon := some next.index }

/-- The comma between entries of a flow collection. -/
def flowEntry (lexer : Lexer) (dialect : Dialect) : Option Lexer := do
  let lexer ← lexer.dropKey
  let next ← lexer.cursor.skip.skipTrailer dialect
  some { lexer.advance .flowEntry next with keyAllowed := true }

/-- The hyphen in front of an entry of a block sequence. -/
def blockEntry (lexer : Lexer) (dialect : Dialect) : Option Lexer :=
  let cursor := lexer.cursor
  if lexer.inFlow then
    if dialect.indentedFlow then none
    else do
      let lexer ← lexer.dropKey
      some { lexer.advance .blockEntry cursor.skip with keyAllowed := true }
  else if !lexer.keyAllowed then none
  else do
    let lexer :=
      lexer.openBlock cursor.column lexer.tokens.size .blockSequenceStart cursor.mark
    let blanks := cursor.skip.rest.takeWhile isBlank
    let rest := cursor.skip.rest.dropWhile isBlank
    if dialect.spacedMarks && blanks.contains '\t' && rest.head? == some '-' &&
        dialect.atGap rest.tail then none
    else
      let lexer :=
        if dialect.indentedFlow && (rest.head?.any dialect.isBreak || atFlowMark rest) then
          lexer.deepen dialect
        else lexer
      let lexer ← lexer.dropKey
      some { lexer.advance .blockEntry cursor.skip with keyAllowed := true }

/-- The question mark in front of a key. -/
def explicitKey (lexer : Lexer) : Option Lexer :=
  let cursor := lexer.cursor
  if !lexer.inFlow && !lexer.keyAllowed then none
  else do
    let lexer := lexer.openBlock cursor.column lexer.tokens.size .blockMappingStart cursor.mark
    let lexer ← lexer.dropKey
    some { lexer.advance .key cursor.skip with keyAllowed := !lexer.inFlow }

/-- The colon in front of a value. What stands in front of the colon becomes a key, if it may. -/
def value (lexer : Lexer) (dialect : Dialect) : Option Lexer :=
  let cursor := lexer.cursor
  let blanks := cursor.skip.rest.takeWhile isBlank
  let behind := cursor.skip.rest.dropWhile isBlank
  if dialect.spacedMarks && blanks.head? == some '\t' && !blanks.contains ' ' &&
      behind.head?.any isWord then none
  else
    match lexer.keys with
    | some key :: keys =>
      let lexer := lexer.insertAt key.position .key key.mark
      let lexer := lexer.openBlock key.mark.column key.position .blockMappingStart key.mark
      let lexer := lexer.deepen dialect
      some { lexer.advance .value cursor.skip with keys := none :: keys, keyAllowed := false }
    | _ =>
      if !lexer.inFlow && !lexer.keyAllowed then none
      else
        let lexer :=
          lexer.openBlock cursor.column lexer.tokens.size .blockMappingStart cursor.mark
        let lexer := lexer.deepen dialect
        some { lexer.advance .value cursor.skip with keyAllowed := !lexer.inFlow }

/-! ## Names and tags -/

/-- The name of an anchor or a reference to one. -/
def anchorOrReference (lexer : Lexer) (dialect : Dialect) (token : List Char → Token) :
    Option Lexer := do
  let lexer ← lexer.saveKey
  let inName (c : Char) : Bool :=
    if dialect.wideNames then !isBlank c && !dialect.isBreak c && !isFlowMark c else isWord c
  let (name, next) := lexer.cursor.skip.splitWhile inName
  let ends := dialect.wideNames || dialect.atGap next.rest ||
    next.rest.head?.any fun c => ['?', ':', ',', ']', '\x7d', '%', '@', '\x60'].contains c
  if name.isEmpty || !ends then none
  else some { lexer.advance (token name) next with keyAllowed := false }

/-- A character that may stand in a tag. -/
def isTagChar (c : Char) : Bool :=
  isWord c || [';', '/', '?', ':', '@', '&', '=', '+', '$', '.', '!', '~', '*', '\'', '(',
    ')'].contains c

/-- The value of two hexadecimal digits behind a percent sign. -/
def escapedByte? : List Char → Option Nat
  | '%' :: high :: low :: _ => Number.natOfDigits? 16 [high, low]
  | _ => none

/-- The further bytes of a character, behind its first one. -/
def escapedTail? : Nat → Nat → List Char → Option Nat
  | 0, code, _ => some code
  | count + 1, code, text => do
    let byte ← escapedByte? text
    if byte / 64 = 2 then escapedTail? count (code * 64 + byte % 64) (text.drop 3) else none

/-- A character that is written as percent signs and digits, and how many bytes it has. -/
def escapedChar? (text : List Char) : Option (Char × Nat) := do
  let byte ← escapedByte? text
  let (width, code) ←
    if byte < 0x80 then some (1, byte)
    else if byte / 32 = 6 then some (2, byte % 32)
    else if byte / 16 = 14 then some (3, byte % 16)
    else if byte / 8 = 30 then some (4, byte % 8)
    else none
  let code ← escapedTail? (width - 1) code (text.drop 3)
  some (← charOfCode? code, width)

/-- The characters of a tag, up to one that belongs to none. In a verbatim tag commas and square
brackets may stand, too. -/
def scanTagText (verbatim : Bool) : Nat → Cursor → List Char → Option (List Char × Cursor)
  | 0, cursor, text => some (text, cursor)
  | fuel + 1, cursor, text =>
    match cursor.rest with
    | [] => some (text, cursor)
    | c :: _ =>
      if c == '%' then do
        let (meant, width) ← escapedChar? cursor.rest
        scanTagText verbatim fuel (cursor.skipMany (3 * width)) (text ++ [meant])
      else if isTagChar c || (verbatim && [',', '[', ']'].contains c) then
        scanTagText verbatim fuel cursor.skip (text ++ [c])
      else some (text, cursor)

/-- A handle: an exclamation mark, or a word between two of them. Without the second one, what was
read is returned and said to be no complete handle. -/
def scanHandle (cursor : Cursor) : Option (List Char × Bool × Cursor) :=
  if cursor.rest.head? != some '!' then none
  else
    let (word, next) := cursor.skip.splitWhile isWord
    if next.rest.head? == some '!' then some ('!' :: (word ++ ['!']), true, next.skip)
    else some ('!' :: word, false, next)

/-- A tag at the cursor. -/
def scanTag (cursor : Cursor) : Option (TagName × Cursor) :=
  let fuel := cursor.rest.length
  if cursor.skip.rest.head? == some '<' then do
    let (suffix, next) ← scanTagText true fuel (cursor.skipMany 2) []
    if suffix.isEmpty || next.rest.head? != some '>' then none
    else some (⟨[], suffix⟩, next.skip)
  else do
    let (handle, complete, next) ← scanHandle cursor
    if complete then
      let (suffix, next) ← scanTagText false fuel next []
      if suffix.isEmpty then none else some (⟨handle, suffix⟩, next)
    else
      let (suffix, next) ← scanTagText false fuel next handle.tail
      if suffix.isEmpty then some (⟨[], ['!']⟩, next) else some (⟨['!'], suffix⟩, next)

/-- A tag in front of what it belongs to. -/
def tag (lexer : Lexer) (dialect : Dialect) : Option Lexer := do
  let lexer ← lexer.saveKey
  let (name, next) ← scanTag lexer.cursor
  let ends := dialect.atGap next.rest ||
    (lexer.inFlow && (if dialect.spacedColons then atFlowMark next.rest
      else next.rest.head? == some ','))
  if !ends then none
  else some { lexer.advance (.tag name) next with keyAllowed := false }

/-! ## Directives and documents -/

/-- A number of at most nine digits. -/
def scanVersionNumber (cursor : Cursor) : Option (Nat × Cursor) := do
  let (digits, next) := cursor.splitWhile Number.isDigit
  if 9 < digits.length then none else some (← Number.natOfDigits? 10 digits, next)

/-- The directive whose name has been read. -/
def scanDirective (dialect : Dialect) (name : List Char) (cursor : Cursor) :
    Option (Token × Cursor) :=
  let (blanks, start) := cursor.splitWhile isBlank
  if name = "YAML".toList then do
    let (major, next) ← scanVersionNumber start
    if next.rest.head? != some '.' then none
    else
      let (minor, next) ← scanVersionNumber next.skip
      some (.versionDirective major minor, next)
  else if name = "TAG".toList then do
    let (handle, complete, next) ← scanHandle start
    let (gap, next) := next.splitWhile isBlank
    if (!complete && handle.length != 1) || gap.isEmpty || blanks.isEmpty then none
    else
      let (value, next) ← scanTagText true start.rest.length next []
      if value.isEmpty || !dialect.atGap next.rest then none
      else some (.tagDirective handle value, next)
  else if dialect.knownDirectives then none
  else some (.otherDirective, cursor.skipLine dialect)

/-- A line with a directive. -/
def directive (lexer : Lexer) (dialect : Dialect) : Option Lexer := do
  let lexer ← (lexer.closeBlocks (-1)).dropKey
  let (name, next) := lexer.cursor.skip.splitWhile isWord
  if name.isEmpty || !dialect.atGap next.rest then none
  else
    let (token, next) ← scanDirective dialect name next
    let (blanks, gap) := next.splitWhile isBlank
    let gap :=
      if gap.rest.head? == some '#' && (!dialect.spacedMarks || !blanks.isEmpty) then
        gap.skipLine dialect
      else gap
    if !dialect.atLineEnd gap.rest then none
    else
      let lexer := lexer.advance token next
      some { lexer with cursor := gap.splitBreak.2, keyAllowed := false }

/-- The start or the end of a document. Nothing may follow an end on its line, where marks have to be
spaced. -/
def documentMark (lexer : Lexer) (dialect : Dialect) (token : Token) : Option Lexer := do
  let lexer ← (lexer.closeBlocks (-1)).dropKey
  let next := lexer.cursor.skipMany 3
  let lexer := { lexer.advance token next with keyAllowed := false }
  if token = .documentEnd && dialect.spacedMarks then
    let gap ← next.skipTrailer dialect
    if dialect.atLineEnd gap.rest then some { lexer with cursor := gap } else none
  else some lexer

/-! ## Scalars -/

/-- A scalar between quotes. Where marks have to be spaced, only the end of the line, the colon behind
a key or the next mark of a flow collection may follow it closely. -/
def quotedScalar (lexer : Lexer) (dialect : Dialect) (single : Bool) : Option Lexer := do
  let lexer ← lexer.saveKey
  let indent := if dialect.indentedFlow then lexer.indent.toNat else 0
  let (text, next) ← scanQuoted dialect single indent lexer.cursor
  let lexer :=
    { lexer.advance (.scalar text .quoted) next with keyAllowed := false }
  if !dialect.spacedMarks then some lexer
  else
    let gap ← next.skipTrailer dialect
    let follows := match gap.rest with
      | [] => true
      | c :: _ => dialect.isBreak c ||
        (c == ':' && (lexer.inFlow || gap.line == next.line)) ||
        (lexer.inFlow && (c == ',' || c == ']' || c == '\x7d'))
    if !follows then none
    else
      let lexer ← skipGap dialect (gap.rest.length + 1) false { lexer with cursor := gap }
      some { lexer with closeColon := some lexer.cursor.index }

/-- A scalar without quotes. If it ends behind a line break, a key may start there. -/
def plainScalar (lexer : Lexer) (dialect : Dialect) : Option Lexer := do
  let lexer := (← lexer.saveKey).settle
  let indent := lexer.indent + 1
  if dialect.indentedFlow && lexer.inFlow && decide (lexer.cursor.column < indent) then none
  else
    let (text, next, broken) ←
      scanPlain dialect lexer.inFlow indent.toNat lexer.cursor
    some { lexer.advance (.scalar text .plain) next with keyAllowed := broken }

/-- A scalar of indented lines. -/
def blockScalar (lexer : Lexer) (dialect : Dialect) (folded : Bool) : Option Lexer := do
  let lexer := (← lexer.dropKey).settle
  let (text, next) ← scanBlock dialect folded lexer.indent lexer.cursor
  some { lexer.advance (.scalar text (if folded then .folded else .literal)) next with
    keyAllowed := true }

/-! ## All tokens -/

/-- Whether a plain scalar may start with a character that means nothing else here. -/
def startsPlain (dialect : Dialect) (c : Char) : Bool :=
  !(c == '%' || c == '@' || c == '\x60') &&
    (dialect.spacedColons || !(isBlank c || c == '|' || c == '>'))

/-- The end of the text, which ends all blocks. -/
def finish (lexer : Lexer) : Option Lexer := do
  let cursor :=
    if lexer.cursor.column = 0 then lexer.cursor
    else { lexer.cursor with line := lexer.cursor.line + 1, column := 0 }
  let lexer ← ({ lexer with cursor }.closeBlocks (-1)).dropKey
  some (lexer.push .streamEnd cursor.mark cursor.mark)

/-- The token at the cursor, where something stands. -/
def scan (lexer : Lexer) (dialect : Dialect) (c : Char) (rest : List Char) : Option Lexer :=
  let inFlow := lexer.inFlow
  let gap := dialect.atGap rest
  let startsKey := gap || (inFlow && !dialect.spacedColons)
  let startsValue := startsKey ||
    (inFlow && (atFlowMark rest || lexer.closeColon == some lexer.cursor.index))
  if c == '%' && lexer.cursor.column == 0 then lexer.directive dialect
  else if lexer.cursor.atDocumentMark dialect '-' then lexer.documentMark dialect .documentStart
  else if lexer.cursor.atDocumentMark dialect '.' then lexer.documentMark dialect .documentEnd
  else if dialect.indentedFlow && decide (lexer.cursor.column < lexer.indent) then none
  else if c == '[' then lexer.openFlow dialect .flowSequenceStart
  else if c == '\x7b' then lexer.openFlow dialect .flowMappingStart
  else if c == ']' then lexer.closeFlow dialect .flowSequenceEnd
  else if c == '\x7d' then lexer.closeFlow dialect .flowMappingEnd
  else if c == ',' then lexer.flowEntry dialect
  else if c == '-' && gap then lexer.blockEntry dialect
  else if c == '?' && startsKey then lexer.explicitKey
  else if c == ':' && startsValue then lexer.value dialect
  else if c == '*' then lexer.anchorOrReference dialect .reference
  else if c == '&' then lexer.anchorOrReference dialect .anchor
  else if c == '!' then lexer.tag dialect
  else if c == '|' && !inFlow then lexer.blockScalar dialect false
  else if c == '>' && !inFlow then lexer.blockScalar dialect true
  else if c == '\'' then lexer.quotedScalar dialect true
  else if c == '"' then lexer.quotedScalar dialect false
  else if startsPlain dialect c then lexer.plainScalar dialect
  else none

/-- Go to the next token. -/
def seek (lexer : Lexer) (dialect : Dialect) : Option Lexer := do
  let lexer ←
    skipGap dialect (lexer.cursor.rest.length + 1) (lexer.cursor.column == 0) lexer
  let lexer ← lexer.dropStaleKeys dialect
  some (lexer.closeBlocks lexer.cursor.column)

/-- Scan tokens up to the end of the text. -/
def scanAll (dialect : Dialect) : Nat → Lexer → Option Lexer
  | 0, _ => none
  | fuel + 1, lexer => do
    let lexer ← lexer.seek dialect
    match lexer.cursor.rest with
    | [] => lexer.finish
    | c :: rest => scanAll dialect fuel (← lexer.scan dialect c rest)

end Lexer

/-- The tokens of a text, or nothing if it cannot be cut into tokens. -/
def Token.ofText? (dialect : Dialect) (text : List Char) : Option (List PlacedToken) := do
  let text ← dialect.readable text
  let lexer ← Lexer.scanAll dialect (text.length + 1) { cursor := .ofList text }
  some lexer.tokens.toList

end Throttle.Yaml
