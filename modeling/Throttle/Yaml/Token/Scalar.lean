import Throttle.Number.Digits
import Throttle.Yaml.Token

/-!
# Scalars

Scanning a scalar: plain, between quotes, or as a block of lines. Each scanner takes the cursor at the
scalar's first character and returns the text it means and the cursor behind it, or nothing if the
scalar is ill-formed. The loops take as fuel the number of characters that are left: every round goes
over at least one of them.

## Main definitions

* `Gap` — blanks and line breaks between the words of a scalar, and what they are read as.
* `scanPlain`, `scanQuoted`, `scanBlock` — the three kinds of scalars.
-/

namespace Throttle.Yaml

/-! ## Gaps -/

/-- What lies between two words of a scalar. -/
structure Gap where
  /-- Blanks before the first line break. -/
  blanks : List Char := []
  /-- Whether there is a line break. -/
  broken : Bool := false
  /-- The first line break, unless it was escaped. -/
  first : List Char := []
  /-- The further line breaks. -/
  more : List Char := []
deriving Repr, DecidableEq

/-- What a gap is read as. A single line feed becomes a blank, and of several the first is dropped. -/
def Gap.fold (gap : Gap) : List Char :=
  if !gap.broken then gap.blanks
  else if gap.first = ['\n'] then (if gap.more.isEmpty then [' '] else gap.more)
  else gap.first ++ gap.more

/-- One more line break. -/
def Gap.addBreak (gap : Gap) (text : List Char) : Gap :=
  if gap.broken then { gap with more := gap.more ++ text }
  else { gap with blanks := [], broken := true, first := text }

/-- Go over a tab that indents a line by less than it has to be. Where such a tab is allowed, the line
holds nothing else. -/
def skipTab (dialect : Dialect) (cursor : Cursor) : Option Cursor := do
  if !dialect.blankTabs then none
  else
    let cursor ← cursor.skipTrailer dialect
    if dialect.atLineEnd cursor.rest then some cursor else none

/-- Go over blanks and line breaks. Lines are to be indented by `indent`, and between quotes a tab may
not take part in that. -/
def scanGap (dialect : Dialect) (indent : Nat) (quoted : Bool) :
    Nat → Cursor → Gap → Option (Gap × Cursor)
  | 0, cursor, gap => some (gap, cursor)
  | fuel + 1, cursor, gap =>
    match cursor.rest with
    | [] => some (gap, cursor)
    | c :: _ =>
      if dialect.isBreak c then
        let (text, next) := cursor.splitBreak
        scanGap dialect indent quoted fuel next (gap.addBreak text)
      else if !isBlank c then some (gap, cursor)
      else if !gap.broken then
        scanGap dialect indent quoted fuel cursor.skip { gap with blanks := gap.blanks ++ [c] }
      else if c == '\t' && decide (cursor.column < indent) then
        if quoted then none
        else (skipTab dialect cursor).bind fun next => scanGap dialect indent quoted fuel next gap
      else scanGap dialect indent quoted fuel cursor.skip gap

/-! ## Plain scalars -/

/-- Whether a plain scalar ends in front of `c` and the text behind it. -/
def Dialect.endsPlain (dialect : Dialect) (inFlow : Bool) (c : Char) (rest : List Char) : Bool :=
  (c == ':' && (dialect.atGap rest || (inFlow && dialect.spacedColons && atFlowMark rest))) ||
    (inFlow && isFlowMark c)

/-- The characters of a word of a plain scalar. In a flow collection, a colon directly in front of a
bracket is refused where it does not end the word. -/
def plainWord (dialect : Dialect) (inFlow : Bool) : List Char → Option (List Char)
  | [] => some []
  | c :: rest =>
    if isBlank c || dialect.isBreak c || dialect.endsPlain inFlow c rest then some []
    else if inFlow && c == ':' && (atFlowMark rest || rest.head? == some '?') &&
        !dialect.spacedColons then none
    else (plainWord dialect inFlow rest).map (c :: ·)

/-- Whether a hyphen stands directly in front of a bracket. -/
def atLoneHyphen : List Char → Bool
  | '-' :: rest => atFlowMark rest
  | _ => false

/-- Go over words and gaps while they belong to a plain scalar that has to be indented by `indent`.
Whether a line break stands behind the last word is told, too. -/
def scanPlainLoop (dialect : Dialect) (inFlow : Bool) (indent : Nat) :
    Nat → Cursor → List Char → Gap → Option (List Char × Cursor × Bool)
  | 0, cursor, text, gap => some (text, cursor, gap.broken)
  | fuel + 1, cursor, text, gap =>
    if cursor.atDocumentEdge dialect || cursor.rest.head? == some '#' then
      some (text, cursor, gap.broken)
    else if inFlow && dialect.spacedColons && atLoneHyphen cursor.rest then none
    else do
      let word ← plainWord dialect inFlow cursor.rest
      let afterWord := cursor.skipMany word.length
      let (text, gap) := if word.isEmpty then (text, gap) else (text ++ gap.fold ++ word, {})
      if !dialect.atGap afterWord.rest || afterWord.rest.isEmpty then
        some (text, afterWord, gap.broken)
      else
        let (gap, afterGap) ← scanGap dialect indent false (fuel + 1) afterWord gap
        if !inFlow && afterGap.column < indent then some (text, afterGap, gap.broken)
        else scanPlainLoop dialect inFlow indent fuel afterGap text gap

/-- A plain scalar. -/
def scanPlain (dialect : Dialect) (inFlow : Bool) (indent : Nat) (cursor : Cursor) :
    Option (List Char × Cursor × Bool) :=
  scanPlainLoop dialect inFlow indent (cursor.rest.length + 1) cursor [] {}

/-! ## Quoted scalars -/

/-- A character by its code, unless the code means none. -/
def charOfCode? (code : Nat) : Option Char :=
  if code.isValidChar then some (Char.ofNat code) else none

/-- The character that a backslash and a letter mean. -/
def escape? : Char → Option Char
  | '0' => some '\x00'
  | 'a' => some '\x07'
  | 'b' => some '\x08'
  | 't' => some '\t'
  | '\t' => some '\t'
  | 'n' => some '\n'
  | 'v' => some '\x0b'
  | 'f' => some '\x0c'
  | 'r' => some '\r'
  | 'e' => some '\x1b'
  | ' ' => some ' '
  | '"' => some '"'
  | '/' => some '/'
  | '\\' => some '\\'
  | 'N' => some '\u0085'
  | '_' => some '\u00a0'
  | 'L' => some '\u2028'
  | 'P' => some '\u2029'
  | _ => none

/-- How many hexadecimal digits follow a backslash and a letter. -/
def escapeDigits? : Char → Option Nat
  | 'x' => some 2
  | 'u' => some 4
  | 'U' => some 8
  | _ => none

/-- The character of an escape, from the text behind the backslash, and how long the escape is. -/
def scanEscape : List Char → Option (Char × Nat)
  | [] => none
  | c :: rest =>
    match escapeDigits? c with
    | none => (escape? c).map fun meant => (meant, 1)
    | some digits => do
      let taken := rest.take digits
      if taken.length < digits then none
      else
        let meant ← charOfCode? (← Number.natOfDigits? 16 taken)
        some (meant, digits + 1)

/-- Go over a word between quotes. A line break behind a backslash ends the word, and is told. -/
def scanQuotedWord (dialect : Dialect) (single : Bool) :
    Nat → Cursor → List Char → Option (List Char × Cursor × Bool)
  | 0, cursor, word => some (word, cursor, false)
  | fuel + 1, cursor, word =>
    match cursor.rest with
    | [] => some (word, cursor, false)
    | c :: rest =>
      if isBlank c || dialect.isBreak c then some (word, cursor, false)
      else if single && c == '\'' then
        if rest.head? == some '\'' then
          scanQuotedWord dialect single fuel (cursor.skipMany 2) (word ++ ['\''])
        else some (word, cursor, false)
      else if !single && c == '"' then some (word, cursor, false)
      else if !single && c == '\\' then
        if !rest.isEmpty && dialect.atLineEnd rest then
          some (word, cursor.skip.splitBreak.2, true)
        else do
          let (meant, length) ← scanEscape rest
          scanQuotedWord dialect single fuel (cursor.skipMany (length + 1)) (word ++ [meant])
      else scanQuotedWord dialect single fuel cursor.skip (word ++ [c])

/-- Go over words and gaps up to the closing quote. -/
def scanQuotedLoop (dialect : Dialect) (single : Bool) (indent : Nat) :
    Nat → Cursor → List Char → Option (List Char × Cursor)
  | 0, _, _ => none
  | fuel + 1, cursor, text =>
    if cursor.atDocumentEdge dialect || cursor.rest.isEmpty || decide (cursor.column < indent) then
      none
    else do
      let (word, afterWord, escaped) ← scanQuotedWord dialect single (fuel + 1) cursor []
      if afterWord.rest.head? == some (if single then '\'' else '"') then
        some (text ++ word, afterWord.skip)
      else
        let (gap, afterGap) ←
          scanGap dialect indent true (fuel + 1) afterWord { broken := escaped }
        scanQuotedLoop dialect single indent fuel afterGap (text ++ word ++ gap.fold)

/-- A scalar between quotes, whose lines have to be indented by `indent`. -/
def scanQuoted (dialect : Dialect) (single : Bool) (indent : Nat) (cursor : Cursor) :
    Option (List Char × Cursor) :=
  scanQuotedLoop dialect single indent (cursor.rest.length + 1) cursor.skip []

/-! ## Block scalars -/

/-- What happens to the line breaks at the end of a block scalar. -/
inductive Chomping where
  | strip
  | clip
  | keep
deriving Repr, DecidableEq

/-- The mark for the chomping of a block scalar. -/
def chomping? : Char → Option Chomping
  | '+' => some .keep
  | '-' => some .strip
  | _ => none

/-- The header of a block scalar: the chomping and the indentation, in either order. -/
def scanHeader (cursor : Cursor) : Option (Chomping × Option Nat × Cursor) :=
  let indentation (c : Char) : Option Nat := (Number.digitValue? 10 c)
  match cursor.rest with
  | c :: rest =>
    match chomping? c, indentation c with
    | some chomp, _ =>
      match rest.head?.bind indentation with
      | some 0 => none
      | some indent => some (chomp, some indent, cursor.skipMany 2)
      | none => some (chomp, none, cursor.skip)
    | none, some 0 => none
    | none, some indent =>
      match rest.head?.bind chomping? with
      | some chomp => some (chomp, some indent, cursor.skipMany 2)
      | none => some (.clip, some indent, cursor.skip)
    | none, none => some (.clip, none, cursor)
  | [] => some (.clip, none, cursor)

/-- Go over the indentation of lines and over empty lines. The indentation is `indent?`, or as deep as
the deepest line; a tab may take part in it only where tabs may stand in indentation. -/
def scanIndents (dialect : Dialect) (indent? : Option Nat) :
    Nat → Cursor → Nat → List Char → Option (Nat × List Char × Cursor)
  | 0, cursor, deepest, breaks => some (deepest, breaks, cursor)
  | fuel + 1, cursor, deepest, breaks =>
    let deepest := max deepest cursor.column
    let inside := match indent? with
      | none => true
      | some indent => decide (cursor.column < indent)
    match cursor.rest with
    | [] => some (deepest, breaks, cursor)
    | c :: _ =>
      if c == ' ' && inside then scanIndents dialect indent? fuel cursor.skip deepest breaks
      else if c == '\t' && inside && !dialect.blankTabs then none
      else if dialect.isBreak c then
        let (text, next) := cursor.splitBreak
        scanIndents dialect indent? fuel next deepest (breaks ++ text)
      else some (deepest, breaks, cursor)

/-- The lines of a block scalar that have been read: their text, the line break behind the last one,
and the empty lines behind that. -/
structure Lines where
  text : List Char := []
  pending : List Char := []
  breaks : List Char := []
deriving Repr, DecidableEq

/-- What joins the lines that have been read to the next one. In a folded scalar a single line break
between two lines that start without a blank becomes a blank, and of several the first is dropped. -/
def Lines.joint (lines : Lines) (folds : Bool) : List Char :=
  if folds && lines.pending == ['\n'] then
    if lines.breaks.isEmpty then [' '] else lines.breaks
  else lines.pending ++ lines.breaks

/-- Go over the lines of a block scalar that are indented by `indent`. -/
def scanLines (dialect : Dialect) (folded : Bool) (indent : Nat) :
    Nat → Cursor → Lines → Bool → Option (Lines × Cursor)
  | 0, cursor, lines, _ => some (lines, cursor)
  | fuel + 1, cursor, lines, blankBefore =>
    if cursor.column != indent || cursor.rest.isEmpty || cursor.atDocumentMark dialect '.' then
      some (lines, cursor)
    else
      let blankHere := (cursor.rest.head?.map isBlank).getD false
      let joint := lines.joint (folded && !blankBefore && !blankHere)
      let (line, afterLine) := cursor.splitWhile fun c => !dialect.isBreak c
      let text := lines.text ++ joint ++ line
      if afterLine.rest.isEmpty then some ({ text }, afterLine)
      else do
        let (pending, next) := afterLine.splitBreak
        let (_, breaks, next) ← scanIndents dialect (some indent) (fuel + 1) next 0 []
        scanLines dialect folded indent fuel next { text, pending, breaks } blankHere

/-- The text of a block scalar whose lines have been read up to the cursor. -/
def Lines.chomp (lines : Lines) (dialect : Dialect) (chomp : Chomping) (indent : Nat)
    (cursor : Cursor) : List Char :=
  let closing :=
    if dialect.laxBlocks && cursor.rest.isEmpty && decide (max indent 1 ≤ cursor.column) then ['\n']
    else []
  match chomp with
  | .strip => lines.text
  | .clip => lines.text ++ lines.pending ++ closing
  | .keep => lines.text ++ lines.pending ++ closing ++ lines.breaks

/-- The text of a block scalar that has no lines and ends the text: `opening` is the line break behind
its header. -/
def chompNothing (chomp : Chomping) (opening breaks : List Char) : List Char :=
  match chomp with
  | .strip => []
  | .clip => opening
  | .keep => if breaks.isEmpty then opening else breaks

/-- A block scalar, in a block that is indented by `outer`. -/
def scanBlock (dialect : Dialect) (folded : Bool) (outer : Int) (cursor : Cursor) :
    Option (List Char × Cursor) := do
  let (chomp, indent?, cursor) ← scanHeader cursor.skip
  let (blanks, cursor) := cursor.splitWhile isBlank
  let cursor :=
    if cursor.rest.head? == some '#' && (!dialect.spacedMarks || !blanks.isEmpty) then
      cursor.skipLine dialect
    else cursor
  if !dialect.atLineEnd cursor.rest then none
  else
    let (opening, cursor) := cursor.splitBreak
    if dialect.laxBlocks && cursor.rest.head? == some '\t' then none
    else
      let fuel := cursor.rest.length + 1
      let least := (outer + 1).toNat
      let (deepest, breaks, cursor) ←
        scanIndents dialect (indent?.map fun indent => outer.toNat + indent) fuel cursor 0 []
      let indent := match indent? with
        | some indent => outer.toNat + indent
        | none => if dialect.laxBlocks then max deepest least else max (max deepest least) 1
      if dialect.laxBlocks && cursor.rest.isEmpty then
        some (chompNothing chomp opening breaks, cursor)
      else if dialect.laxBlocks && decide (cursor.column < indent) &&
          decide (outer < cursor.column) then none
      else
        let (lines, cursor) ← scanLines dialect folded indent fuel cursor { breaks } false
        some (lines.chomp dialect chomp indent cursor, cursor)

end Throttle.Yaml
