import Throttle.Settings.Fault

/-!
# Dialects

YAML is read in two dialects that agree on ordinary documents. `Dialect.strict` is the one of a
settings document that is read on its own; `Dialect.layered` is the one of a settings file that is
overlaid with other sources. A dialect is a record of the decisions in which they differ.

## Main definitions

* `Dialect` — the decisions.
* `Cursor` — a place in the text and what is left of it.
-/

namespace Throttle.Yaml

/-- The decisions in which dialects differ. -/
structure Dialect where
  /-- A control character makes the whole text ill-formed; else the text ends at a null character. -/
  refusesControls : Bool
  /-- The Unicode line separators end a line, too. -/
  unicodeBreaks : Bool
  /-- A directive with an unknown name or version makes the text ill-formed; else it is skipped, and
  only the last directive counts. -/
  knownDirectives : Bool
  /-- A byte order mark at the start of a line is skipped. -/
  byteOrderMarks : Bool
  /-- A text may begin with the end of a document. -/
  bareEnds : Bool
  /-- A mapping's entry may lack its key. -/
  bareValues : Bool
  /-- What stands in a flow collection inside of a block has to be indented, and its keys may span
  lines. -/
  indentedFlow : Bool
  /-- A comment has to be set off from a bracket, a comma or a quote by a blank, and a word from its
  colon by more than a tab. -/
  spacedMarks : Bool
  /-- An anchor's name may hold any character that is no blank and no bracket. -/
  wideNames : Bool
  /-- A colon in a flow collection marks a value only in front of a blank or a bracket, or right behind
  a key that is quoted or bracketed. -/
  spacedColons : Bool
  /-- A tab may stand in the indentation of a line that holds nothing else, but not in front of a
  block's entry. -/
  blankTabs : Bool
  /-- A block scalar that is a whole document needs no indentation, and the last line of a text is read
  as if a line break followed it. -/
  laxBlocks : Bool
deriving Repr, DecidableEq

/-- The dialect of a settings document that is read on its own. -/
def Dialect.strict : Dialect where
  refusesControls := true
  unicodeBreaks := true
  knownDirectives := true
  byteOrderMarks := true
  bareEnds := false
  bareValues := false
  indentedFlow := false
  spacedMarks := false
  wideNames := false
  spacedColons := false
  blankTabs := false
  laxBlocks := false

/-- The dialect of a settings file that is overlaid with other sources. -/
def Dialect.layered : Dialect where
  refusesControls := false
  unicodeBreaks := false
  knownDirectives := false
  byteOrderMarks := false
  bareEnds := true
  bareValues := true
  indentedFlow := true
  spacedMarks := true
  wideNames := true
  spacedColons := true
  blankTabs := true
  laxBlocks := true

/-! ## Characters -/

/-- A character that ends a line. -/
def Dialect.isBreak (dialect : Dialect) (c : Char) : Bool :=
  c == '\n' || c == '\r' ||
    (dialect.unicodeBreaks && (c == '\u0085' || c == '\u2028' || c == '\u2029'))

/-- A blank within a line. -/
def isBlank (c : Char) : Bool := c == ' ' || c == '\t'

/-- A letter, a digit, a hyphen or an underscore of ASCII. -/
def isWord (c : Char) : Bool := c.isAlphanum || c == '-' || c == '_'

/-- A bracket of a flow collection or the comma between its entries. -/
def isFlowMark (c : Char) : Bool := c == ',' || c == '[' || c == ']' || c == '\x7b' || c == '\x7d'

/-- Whether the text is at its end or at the end of a line. -/
def Dialect.atLineEnd (dialect : Dialect) : List Char → Bool
  | [] => true
  | c :: _ => dialect.isBreak c

/-- Whether the text is at a blank, at its end or at the end of a line. -/
def Dialect.atGap (dialect : Dialect) : List Char → Bool
  | [] => true
  | c :: _ => isBlank c || dialect.isBreak c

/-- Whether a bracket or a comma comes next. -/
def atFlowMark : List Char → Bool
  | [] => false
  | c :: _ => isFlowMark c

/-- Whether a character may stand in a text at all. -/
def isAllowed (c : Char) : Bool :=
  c == '\t' || c == '\n' || c == '\r' || (' ' ≤ c && c ≤ '~') || c == '\u0085' ||
    ('\u00a0' ≤ c && c ≤ '\ufffd') || decide (0x10000 ≤ c.toNat)

/-- The part of a text that is read, unless no part is. -/
def Dialect.readable (dialect : Dialect) (text : List Char) : Option (List Char) :=
  if dialect.refusesControls then (if text.all isAllowed then some text else none)
  else some (text.takeWhile (· != '\x00'))

/-! ## Cursors -/

/-- A place in a text: what is left from there on, the number of characters before it, and the
mark. -/
structure Cursor where
  rest : List Char
  index : Nat
  line : Nat
  column : Nat
deriving Repr, DecidableEq

namespace Cursor

/-- The start of a text. -/
def ofList (text : List Char) : Cursor := ⟨text, 0, 0, 0⟩

/-- The mark of a place. -/
def mark (cursor : Cursor) : Mark := ⟨cursor.line, cursor.column⟩

/-- Go over one character within a line. -/
def skip (cursor : Cursor) : Cursor :=
  match cursor.rest with
  | [] => cursor
  | _ :: rest => { cursor with rest, index := cursor.index + 1, column := cursor.column + 1 }

/-- Go over some characters within a line. -/
def skipMany (cursor : Cursor) : Nat → Cursor
  | 0 => cursor
  | count + 1 => skipMany cursor.skip count

/-- Go over the characters that satisfy a predicate, within a line. -/
def splitWhile (cursor : Cursor) (p : Char → Bool) : List Char × Cursor :=
  let taken := cursor.rest.takeWhile p
  (taken, { cursor with
    rest := cursor.rest.dropWhile p
    index := cursor.index + taken.length
    column := cursor.column + taken.length })

/-- Go over what is left of the line. -/
def skipLine (cursor : Cursor) (dialect : Dialect) : Cursor :=
  (cursor.splitWhile fun c => !dialect.isBreak c).2

/-- Go over a line break, and say how it is read: the line separators stand for themselves, every
other break is a line feed. -/
def splitBreak (cursor : Cursor) : List Char × Cursor :=
  match cursor.rest with
  | '\r' :: '\n' :: rest =>
    (['\n'], { rest, index := cursor.index + 2, line := cursor.line + 1, column := 0 })
  | c :: rest =>
    ([if c == '\u2028' || c == '\u2029' then c else '\n'],
      { rest, index := cursor.index + 1, line := cursor.line + 1, column := 0 })
  | [] => ([], cursor)

/-- Go over blanks and a comment behind a mark. Where marks have to be spaced, a comment directly
behind one is refused; else nothing is gone over. -/
def skipTrailer (cursor : Cursor) (dialect : Dialect) : Option Cursor :=
  if !dialect.spacedMarks then some cursor
  else
    let (blanks, cursor) := cursor.splitWhile isBlank
    if cursor.rest.head? != some '#' then some cursor
    else if blanks.isEmpty then none
    else some (cursor.skipLine dialect)

/-- Whether `---` or `...` stands alone at the start of a line. -/
def atDocumentMark (cursor : Cursor) (dialect : Dialect) (c : Char) : Bool :=
  cursor.column == 0 &&
    match cursor.rest with
    | c₁ :: c₂ :: c₃ :: rest => c₁ == c && c₂ == c && c₃ == c && dialect.atGap rest
    | _ => false

/-- Whether a document starts or ends here. -/
def atDocumentEdge (cursor : Cursor) (dialect : Dialect) : Bool :=
  cursor.atDocumentMark dialect '-' || cursor.atDocumentMark dialect '.'

end Cursor

end Throttle.Yaml
