import Mathlib
import Throttle.Proofs.Yaml.Reading

/-!
# Lines in blocks

A document may be written in lines. A line holds a key and a colon and, behind them, a value or nothing; how
deep it is indented says which block it belongs to. Reading such lines gives the tokens of the blocks: a line
that is deeper than the innermost open block opens one, and a line that is less deep ends all blocks that are
deeper than it.

The blocks that are open are given by their columns, innermost first. From one line to the next one a lexer
keeps to `AtLine`, and that carries the induction on the lines.

## Main definitions

* `Line`, `textOf` — lines, and the text that they make up.
* `Readable` — every line is made up of words, and no value goes on in the next line.
* `tokensOf` — the tokens of lines.

## Main statements

* `Lexer.AtLine.read` — one line.
* `Token.ofText?_lines` — the tokens of a text in lines.
-/

namespace Throttle.Yaml

/-- A key at a column and, behind its colon, a value if there is one. -/
structure Line where
  column : Nat
  key : List Char
  value : Option (List Char)

/-! ## Writing -/

namespace Line

/-- What stands on a line behind its indentation. -/
def body (line : Line) : List Char :=
  line.key ++ ':' :: (line.value.elim [] (' ' :: ·) ++ ['\n'])

/-- How deep the first of some lines is indented. -/
def indentation : List Line → Nat
  | [] => 0
  | line :: _ => line.column

/-- The text of some lines. -/
def textOf (lines : List Line) : List Char :=
  lines.flatMap fun line => List.replicate line.column ' ' ++ line.body

/-- The text of some lines behind the indentation of the first one. -/
def behindIndentation : List Line → List Char
  | [] => []
  | line :: lines => line.body ++ textOf lines

theorem textOf_eq (lines : List Line) :
    textOf lines = List.replicate (indentation lines) ' ' ++ behindIndentation lines := by
  cases lines with
  | nil => rfl
  | cons line lines => simp [textOf, indentation, behindIndentation]

/-- What stands behind the colon of a line, up to the end of the text. -/
def behindColon (line : Line) (lines : List Line) : List Char :=
  line.value.elim [] (' ' :: ·) ++ '\n' :: textOf lines

theorem behindIndentation_cons (line : Line) (lines : List Line) :
    behindIndentation (line :: lines) = line.key ++ ':' :: line.behindColon lines := by
  simp [behindIndentation, body, behindColon]

/-- A gap stands behind the colon of a line. -/
theorem atGap_behindColon (line : Line) (lines : List Line) :
    Dialect.strict.atGap (line.behindColon lines) = true := by
  rw [behindColon]
  cases line.value <;> rfl

/-- A line can be read if its key and its value are words. No line is part of the value before it, and a key is
not too long. -/
structure Readable (line : Line) (lines : List Line) : Prop where
  key : IsWord line.key
  short : line.key.length ≤ 1024
  value : ∀ value ∈ line.value, IsWord value ∧ indentation lines ≤ line.column

/-- All of some lines can be read. -/
def AllReadable : List Line → Prop
  | [] => True
  | line :: lines => line.Readable lines ∧ AllReadable lines

theorem AllReadable.isNameChar {lines : List Line} (h : AllReadable lines) :
    ∀ c ∈ (behindIndentation lines).head?, isNameChar c = true := by
  cases lines with
  | nil => simp [behindIndentation]
  | cons line lines =>
    obtain ⟨c, more, hkey, hc⟩ := h.1.key.exists_cons
    simpa [behindIndentation, body, hkey] using hc

/-- The text of lines that can be read holds no character that is not allowed. -/
theorem AllReadable.all_isAllowed {lines : List Line} (h : AllReadable lines) :
    (textOf lines).all isAllowed = true := by
  induction lines with
  | nil => rfl
  | cons line lines ih =>
    have hbody : line.body.all isAllowed = true := by
      rw [body, List.all_append, h.1.key.all_isAllowed]
      cases hvalue : line.value with
      | none => decide
      | some value => simp [(h.1.value value hvalue).1.all_isAllowed, isAllowed]
    have hspaces : (List.replicate line.column ' ').all isAllowed = true :=
      List.all_eq_true.mpr fun c hc => by rw [List.eq_of_mem_replicate hc]; decide
    rw [textOf, List.flatMap_cons, List.all_append, List.all_append, hbody, hspaces]
    exact ih h.2

/-! ## Tokens -/

/-- Whether a block is deeper than a column. -/
def isDeeper (column : Int) (block : Nat) : Bool := decide (column < block)

/-- The open blocks that a line belongs to. -/
def outside (line : Line) (columns : List Nat) : List Nat := columns.dropWhile (isDeeper line.column)

/-- The open blocks that end before a line. -/
def ended (line : Line) (columns : List Nat) : List Nat := columns.takeWhile (isDeeper line.column)

/-- The blocks that are open behind a line. -/
def inside (line : Line) (columns : List Nat) : List Nat :=
  if (line.outside columns).head? = some line.column then line.outside columns
  else line.column :: line.outside columns

/-- The tokens of a line: those that end and open blocks, and those of its key and its value. -/
def tokens (line : Line) (columns : List Nat) : List Token :=
  List.replicate (line.ended columns).length .blockEnd ++
  (if (line.outside columns).head? = some line.column then [] else [.blockMappingStart]) ++
  [Token.key, .scalar line.key .plain, .value] ++ (line.value.map fun value => Token.scalar value .plain).toList

/-- The tokens of some lines, up to the end of the text. -/
def tokensOf (columns : List Nat) : List Line → List Token
  | [] => List.replicate columns.length .blockEnd ++ [.streamEnd]
  | line :: lines => line.tokens columns ++ tokensOf (line.inside columns) lines

/-- The tokens of a line that opens and ends no block. -/
def entryTokens (line : Line) : List Token :=
  [Token.key, .scalar line.key .plain, .value] ++ (line.value.map fun value => Token.scalar value .plain).toList

section Columns

variable {line : Line} {lines : List Line} {columns : List Nat}

/-- A line beside the one before it. -/
theorem tokensOf_beside :
    tokensOf (line.column :: columns) (line :: lines) =
      line.entryTokens ++ tokensOf (line.column :: columns) lines := by
  simp [tokensOf, tokens, inside, outside, ended, isDeeper, entryTokens]

/-- A line that is deeper than the one before it. -/
theorem tokensOf_deeper {outer : Nat} (h : outer < line.column) :
    tokensOf (outer :: columns) (line :: lines) =
      .blockMappingStart :: (line.entryTokens ++ tokensOf (line.column :: outer :: columns) lines) := by
  have hnot : ¬line.column < outer := Nat.not_lt.mpr (Nat.le_of_lt h)
  simp [tokensOf, tokens, inside, outside, ended, isDeeper, entryTokens, hnot, Nat.ne_of_lt h]

/-- A line that is one block less deep than the one before it. -/
theorem tokensOf_behind {inner : Nat} (h : line.column < inner) :
    tokensOf (inner :: line.column :: columns) (line :: lines) =
      .blockEnd :: tokensOf (line.column :: columns) (line :: lines) := by
  simp [tokensOf, tokens, inside, outside, ended, isDeeper, h]

/-- The first line. -/
theorem tokensOf_first :
    tokensOf [] (line :: lines) = .blockMappingStart :: tokensOf [line.column] (line :: lines) := by
  simp [tokensOf, tokens, inside, outside, ended, isDeeper]

/-- Lines beside one another. -/
theorem tokensOf_append {column : Nat} {block : List Line} (h : ∀ line ∈ block, line.column = column) :
    tokensOf (column :: columns) (block ++ lines) =
      block.flatMap entryTokens ++ tokensOf (column :: columns) lines := by
  induction block with
  | nil => rfl
  | cons line block ih =>
    obtain ⟨rfl, hblock⟩ := List.forall_mem_cons.mp h
    rw [List.cons_append, tokensOf_beside, ih hblock, List.flatMap_cons, List.append_assoc]

end Columns

end Line

/-! ## Blocks -/

/-- The indentation inside of some blocks. -/
def indentOf : List Nat → Int
  | [] => -1
  | column :: _ => column

/-- The levels of indentation around some blocks. -/
def outersOf : List Nat → List Outer
  | [] => []
  | _ :: columns => ⟨indentOf columns, true⟩ :: outersOf columns

theorem closesBlock_of_mem_outersOf {columns : List Nat} :
    ∀ outer ∈ (outersOf columns).head?, outer.closesBlock = true := by
  cases columns with
  | nil => simp [outersOf]
  | cons column columns => simp [outersOf]

/-- Blocks that are deeper than a column end. -/
theorem closeLevels_outersOf (column : Int) (mark : Mark) (columns : List Nat) (tokens : Array PlacedToken) :
    ∃ closed, Lexer.closeLevels column mark (outersOf columns) (indentOf columns) tokens =
        (outersOf (columns.dropWhile (Line.isDeeper column)),
          indentOf (columns.dropWhile (Line.isDeeper column)), closed) ∧
      closed.toList.map PlacedToken.token = tokens.toList.map PlacedToken.token ++
        List.replicate (columns.takeWhile (Line.isDeeper column)).length .blockEnd := by
  induction columns generalizing tokens with
  | nil => exact ⟨tokens, rfl, by simp⟩
  | cons inner columns ih =>
    rw [outersOf, Lexer.closeLevels, indentOf]
    by_cases h : column < (inner : Int)
    · obtain ⟨closed, hclosed, htokens⟩ := ih (tokens.push ⟨.blockEnd, mark, mark⟩)
      refine ⟨closed, ?_, ?_⟩
      · simp [h, hclosed, Line.isDeeper]
      · rw [htokens]
        simp [h, List.replicate_succ, Line.isDeeper]
    · refine ⟨tokens, ?_, ?_⟩
      · simp [h, outersOf, indentOf, Line.isDeeper]
      · simp [h, Line.isDeeper]

theorem closeLevels_eq_self {column : Int} (mark : Mark) {columns : List Nat} (tokens : Array PlacedToken)
    (h : indentOf columns ≤ column) :
    Lexer.closeLevels column mark (outersOf columns) (indentOf columns) tokens =
      (outersOf columns, indentOf columns, tokens) := by
  cases columns with
  | nil => rfl
  | cons inner columns => rw [outersOf, Lexer.closeLevels, if_neg (Int.not_lt.mpr h)]

namespace Lexer

/-- The lexer is outside of flow collections and inside of blocks at some columns. -/
structure InBlocks (lexer : Lexer) (columns : List Nat) : Prop where
  indent : lexer.indent = indentOf columns
  outers : lexer.outers = outersOf columns
  inFlow : lexer.inFlow = false

@[simp] theorem cursor_closeBlocks (lexer : Lexer) (column : Int) :
    (lexer.closeBlocks column).cursor = lexer.cursor := by
  rw [closeBlocks]
  split <;> rfl

@[simp] theorem keys_closeBlocks (lexer : Lexer) (column : Int) :
    (lexer.closeBlocks column).keys = lexer.keys := by
  rw [closeBlocks]
  split <;> rfl

@[simp] theorem keyAllowed_closeBlocks (lexer : Lexer) (column : Int) :
    (lexer.closeBlocks column).keyAllowed = lexer.keyAllowed := by
  rw [closeBlocks]
  split <;> rfl

namespace InBlocks

variable {lexer : Lexer} {columns : List Nat}

theorem settle (h : lexer.InBlocks columns) : lexer.settle = lexer :=
  settle_eq (h.outers ▸ closesBlock_of_mem_outersOf)

/-- The blocks that are deeper than a column end. -/
theorem closeBlocks (h : lexer.InBlocks columns) (column : Int) :
    (lexer.closeBlocks column).InBlocks (columns.dropWhile (Line.isDeeper column)) ∧
      (lexer.closeBlocks column).words =
        lexer.words ++ List.replicate (columns.takeWhile (Line.isDeeper column)).length .blockEnd := by
  obtain ⟨closed, hclosed, htokens⟩ :=
    closeLevels_outersOf column lexer.cursor.mark columns lexer.tokens
  have heq : lexer.closeBlocks column = { lexer with
      tokens := closed
      indent := indentOf (columns.dropWhile (Line.isDeeper column))
      outers := outersOf (columns.dropWhile (Line.isDeeper column)) } := by
    rw [Lexer.closeBlocks, h.inFlow, h.outers, h.indent, hclosed]
    rfl
  rw [heq]
  exact ⟨⟨rfl, rfl, h.inFlow⟩, htokens⟩

/-- No block ends where the text is as deep as all of them. -/
theorem closeBlocks_eq_self (h : lexer.InBlocks columns) {column : Int} (hcolumn : indentOf columns ≤ column) :
    lexer.closeBlocks column = lexer := by
  rw [Lexer.closeBlocks, h.inFlow, h.outers, h.indent, closeLevels_eq_self _ _ hcolumn, ← h.outers, ← h.indent]
  rfl

theorem openBlock_eq (h : lexer.InBlocks columns) {column : Nat} (hcolumn : indentOf columns ≤ column)
    (position : Nat) (mark : Mark) :
    lexer.openBlock column position .blockMappingStart mark =
      if columns.head? = some column then lexer
      else { lexer.insertAt position .blockMappingStart mark with
        indent := indentOf (column :: columns), outers := outersOf (column :: columns) } := by
  rw [Lexer.openBlock, if_neg (by simp [h.inFlow])]
  cases columns with
  | nil =>
    have houters : lexer.outers = [] := h.outers
    have hindent : lexer.indent = -1 := h.indent
    have hdeeper : lexer.indent < (column : Int) := by omega
    simp only [houters]
    rw [if_pos hdeeper, if_neg (by simp)]
    simp only [hindent, outersOf, indentOf]
  | cons inner columns =>
    have houters : lexer.outers = ⟨indentOf columns, true⟩ :: outersOf columns := h.outers
    have hindent : lexer.indent = inner := h.indent
    have hle : inner ≤ column := Int.ofNat_le.mp hcolumn
    simp only [houters]
    rcases Nat.eq_or_lt_of_le hle with rfl | hlt
    · rw [if_neg (by rw [hindent]; exact Int.lt_irrefl _)]
      exact (if_pos rfl).symm
    · have hdeeper : lexer.indent < (column : Int) := by omega
      rw [if_pos hdeeper, if_neg (by simpa using Nat.ne_of_lt hlt)]
      simp only [hindent, outersOf, indentOf]

/-- A block is opened at a column, unless the innermost one is there. -/
theorem openBlock (h : lexer.InBlocks columns) {column : Nat} (hcolumn : indentOf columns ≤ column)
    {before behind : List Token} (hwords : lexer.words = before ++ behind) (mark : Mark) :
    (lexer.openBlock column before.length .blockMappingStart mark).InBlocks
        (if columns.head? = some column then columns else column :: columns) ∧
      (lexer.openBlock column before.length .blockMappingStart mark).words =
        before ++ (if columns.head? = some column then [] else [.blockMappingStart]) ++ behind := by
  rw [h.openBlock_eq hcolumn]
  split
  · exact ⟨h, by rw [hwords, List.append_nil]⟩
  · refine ⟨⟨rfl, rfl, h.inFlow⟩, ?_⟩
    have hinserted := words_insertAt lexer before.length .blockMappingStart mark
    rw [hwords, List.take_left, List.drop_left] at hinserted
    rw [List.append_assoc]
    exact hinserted

end InBlocks

/-! ## Reading -/

/-- The lexer is at the first key of some lines, inside of blocks at some columns. -/
structure AtLine (lexer : Lexer) (columns : List Nat) (lines : List Line) : Prop extends
    InBlocks lexer columns where
  rest : lexer.cursor.rest = Line.behindIndentation lines
  column : lexer.cursor.column = Line.indentation lines
  keyAllowed : lexer.keyAllowed = true
  keys : lexer.keys = [none]

/-- The lexer is behind a line's key. -/
structure BehindKey (lexer : Lexer) (columns : List Nat) (line : Line) (lines : List Line)
    (words : List Token) : Prop extends InBlocks lexer columns where
  rest : lexer.cursor.rest = ':' :: line.behindColon lines
  column : line.column ≤ lexer.cursor.column
  keyAllowed : lexer.keyAllowed = false
  keys : ∃ key, lexer.keys = [some key] ∧ key.position = words.length ∧ key.mark.column = line.column ∧
    PossibleKey.stale key lexer.cursor = false
  words : lexer.words = words ++ [.scalar line.key .plain]

/-- The lexer is behind a line's colon. -/
structure BehindColon (lexer : Lexer) (columns : List Nat) (line : Line) (lines : List Line) : Prop extends
    InBlocks lexer columns where
  rest : lexer.cursor.rest = line.behindColon lines
  column : line.column ≤ lexer.cursor.column
  keyAllowed : lexer.keyAllowed = false
  keys : lexer.keys = [none]

/-- What is inside of some blocks is as deep as each of them. -/
theorem indentOf_outside_le (line : Line) (columns : List Nat) :
    indentOf (line.outside columns) ≤ line.column := by
  rw [Line.outside]
  induction columns with
  | nil => simp [indentOf]
  | cons inner columns ih =>
    rw [List.dropWhile_cons]
    split
    · exact ih
    · rename_i h
      simpa [indentOf, Line.isDeeper] using h

theorem indentOf_inside (line : Line) (columns : List Nat) : indentOf (line.inside columns) = line.column := by
  rw [Line.inside]
  split
  · rename_i hhead
    obtain ⟨more, hmore⟩ := List.head?_eq_some_iff.mp hhead
    rw [hmore, indentOf]
  · rfl

/-- A key is read as a scalar, and its place is kept. -/
theorem InBlocks.plainScalar_key {lexer : Lexer} {columns : List Nat} {line : Line} {lines : List Line}
    (h : lexer.InBlocks columns) (hrest : lexer.cursor.rest = line.key ++ ':' :: line.behindColon lines)
    (hcolumn : lexer.cursor.column = line.column) (hallowed : lexer.keyAllowed = true)
    (hkeys : lexer.keys = [none]) (hread : line.Readable lines) :
    ∃ next, lexer.plainScalar .strict = some next ∧ next.BehindKey columns line lines lexer.words := by
  have hsaved : lexer.saveKey = some { lexer with keys := [some lexer.keyHere] } :=
    saveKey_eq hkeys (by simp) hallowed
  have hinside : ({ lexer with keys := [some lexer.keyHere] } : Lexer).InBlocks columns :=
    ⟨h.indent, h.outers, rfl⟩
  have hword : plainWord .strict false (':' :: line.behindColon lines) = some [] := by
    simp [plainWord, Dialect.endsPlain, line.atGap_behindColon]
  refine ⟨_, plainScalar_eq hsaved hinside.settle (scanPlain_word hread.key hrest hword rfl), ?_⟩
  exact {
    indent := h.indent
    outers := h.outers
    inFlow := rfl
    rest := rfl
    column := by simp [advance, push, Cursor.behind, hcolumn]
    keyAllowed := rfl
    keys := by
      refine ⟨lexer.keyHere, rfl, (length_words lexer).symm, hcolumn, ?_⟩
      have hshort := hread.short
      simp [PossibleKey.stale, keyHere, Cursor.mark, advance, push, Cursor.behind]
      omega
    words := words_advance _ _ _ }

/-- **The key of a line.** Before it, all blocks end that are deeper than the line. -/
theorem AtLine.readKey {lexer : Lexer} {columns : List Nat} {line : Line} {lines : List Line}
    (h : lexer.AtLine columns (line :: lines)) (hread : line.Readable lines) :
    ∃ next, Leads lexer next ∧ next.BehindKey (line.outside columns) line lines
      (lexer.words ++ List.replicate (line.ended columns).length .blockEnd) := by
  obtain ⟨c, more, hkey, hc⟩ := hread.key.exists_cons
  have hrest : lexer.cursor.rest = line.key ++ ':' :: line.behindColon lines :=
    h.rest.trans (Line.behindIndentation_cons line lines)
  have hcons : lexer.cursor.rest = c :: (more ++ ':' :: line.behindColon lines) := by
    rw [hrest, hkey, List.cons_append]
  have hseek : lexer.seek .strict = some (lexer.closeBlocks line.column) := by
    rw [seek_eq (by rw [hcons]; simpa using isVisible_of_isNameChar hc) (by simp [h.keys]), h.column]
    rfl
  obtain ⟨hinside, hwords⟩ := h.toInBlocks.closeBlocks line.column
  obtain ⟨next, hnext, hbehind⟩ := hinside.plainScalar_key (by simpa using hrest)
    (by rw [cursor_closeBlocks, h.column]; rfl) (by simpa using h.keyAllowed) (by simpa using h.keys) hread
  rw [hwords] at hbehind
  refine ⟨next, .of_scan hseek (by simpa using hcons) ?_ ?_, hbehind⟩
  · rw [scan_word (by simpa using hcons) hc, hnext]
  · rw [hbehind.rest, hrest, hkey]
    simp

/-- **The colon of a line.** If the line is deeper than the innermost block, it opens one. -/
theorem BehindKey.readColon {lexer : Lexer} {columns : List Nat} {line : Line} {lines : List Line}
    {words : List Token} (h : lexer.BehindKey columns line lines words)
    (hcolumns : indentOf columns ≤ line.column) :
    ∃ next, Leads lexer next ∧
      next.BehindColon (if columns.head? = some line.column then columns else line.column :: columns) line
        lines ∧
      next.words = words ++ (if columns.head? = some line.column then [] else [.blockMappingStart]) ++
        [Token.key, .scalar line.key .plain, .value] := by
  obtain ⟨key, hkeys, hposition, hcolumn, hstale⟩ := h.keys
  have hseek : lexer.seek .strict = some lexer := by
    rw [seek_eq (by rw [h.rest]; simp [isVisible, Dialect.isBreak]) (by simp [hkeys, hstale]),
      h.toInBlocks.closeBlocks_eq_self (by have := h.column; omega)]
  have hmarked : (lexer.insertAt key.position .key key.mark).words =
      words ++ [Token.key, .scalar line.key .plain] := by
    rw [words_insertAt, h.words, hposition]
    simp
  have hinside : (lexer.insertAt key.position .key key.mark).InBlocks columns := ⟨h.indent, h.outers, h.inFlow⟩
  obtain ⟨hopened, hwords⟩ := hinside.openBlock hcolumns hmarked key.mark
  have hscan := (scan_colon h.rest (.inl (line.atGap_behindColon lines))).trans (value_eq hkeys)
  rw [hcolumn, hposition] at hscan
  rw [hposition] at hopened hwords
  have hrest : lexer.cursor.skip.rest = line.behindColon lines := Cursor.rest_skip h.rest
  refine ⟨_, .of_scan hseek h.rest hscan ?_, ?_, ?_⟩
  · simp [advance, push, hrest, h.rest]
  · exact {
      indent := hopened.indent
      outers := hopened.outers
      inFlow := rfl
      rest := hrest
      column := by
        have := h.column
        simp [advance, push, Cursor.skip, h.rest]
        omega
      keyAllowed := rfl
      keys := rfl }
  · refine (words_advance _ _ _).trans ?_
    rw [hwords]
    simp

/-- A value is read as a scalar, which ends in front of the next line. -/
theorem InBlocks.plainScalar_value {lexer : Lexer} {columns : List Nat} {line : Line} {lines : List Line}
    {value : List Char} (h : lexer.InBlocks columns) (hcolumns : indentOf columns = line.column)
    (hrest : lexer.cursor.rest =
      value ++ '\n' :: (List.replicate (Line.indentation lines) ' ' ++ Line.behindIndentation lines))
    (hallowed : lexer.keyAllowed = false) (hkeys : lexer.keys = [none]) (hvalue : IsWord value)
    (hnext : Line.indentation lines ≤ line.column) (hlines : Line.AllReadable lines) :
    ∃ next, lexer.plainScalar .strict = some next ∧ next.AtLine columns lines ∧
      next.words = lexer.words ++ [.scalar value .plain] := by
  have hstarts : Starts (Line.behindIndentation lines) := fun c hc =>
    ⟨isBlank_of_isNameChar (hlines.isNameChar c hc), isBreak_of_isNameChar (hlines.isNameChar c hc)⟩
  have hscan : scanPlain .strict lexer.inFlow (lexer.indent + 1).toNat lexer.cursor = some (value,
      (lexer.cursor.behind value.length []).nextLine (Line.indentation lines) (Line.behindIndentation lines),
      true) := by
    rw [h.inFlow]
    refine scanPlain_word_line hvalue hrest hstarts ?_
    rw [h.indent, hcolumns]
    omega
  refine ⟨_, plainScalar_eq (saveKey_of_not_allowed hallowed) h.settle hscan, ?_, words_advance _ _ _⟩
  exact {
    indent := h.indent
    outers := h.outers
    inFlow := h.inFlow
    rest := rfl
    column := rfl
    keyAllowed := rfl
    keys := hkeys }

/-- **The end of a line** with no value, and the indentation of the next one. -/
theorem BehindColon.readEnd {lexer : Lexer} {columns : List Nat} {line : Line} {lines : List Line}
    (h : lexer.BehindColon columns line lines) (hvalue : line.value = none) (hlines : Line.AllReadable lines) :
    ∃ next, Leads lexer next ∧ next.AtLine columns lines ∧ next.words = lexer.words := by
  have hvisible : ∀ c ∈ (Line.behindIndentation lines).head?, isVisible c = true :=
    fun c hc => isVisible_of_isNameChar (hlines.isNameChar c hc)
  have hline : lexer.cursor.rest =
      '\n' :: (List.replicate (Line.indentation lines) ' ' ++ Line.behindIndentation lines) := by
    rw [h.rest, Line.behindColon, Line.textOf_eq, hvalue]
    rfl
  have hgap : skipGap .strict (lexer.cursor.rest.length + 1) (lexer.cursor.column == 0) lexer = some _ :=
    skipGap_line hline (by rw [hline]; simp) hvisible h.inFlow
  refine ⟨_, .of_seek_eq (seek_of_skipGap hgap hvisible) ?_, ?_, rfl⟩
  · rw [hline]
    simp only [Cursor.nextLine, List.length_cons, List.length_append]
    omega
  · exact {
      indent := h.indent
      outers := h.outers
      inFlow := h.inFlow
      rest := rfl
      column := rfl
      keyAllowed := rfl
      keys := h.keys }

/-- **The value of a line**, and the indentation of the next one. -/
theorem BehindColon.readValue {lexer : Lexer} {columns : List Nat} {line : Line} {lines : List Line}
    {value : List Char} (h : lexer.BehindColon columns line lines) (hcolumns : indentOf columns = line.column)
    (hvalue : line.value = some value) (hread : line.Readable lines) (hlines : Line.AllReadable lines) :
    ∃ next, Leads lexer next ∧ next.AtLine columns lines ∧
      next.words = lexer.words ++ [.scalar value .plain] := by
  obtain ⟨hword, hnext⟩ := hread.value value hvalue
  obtain ⟨c, more, hcons, hc⟩ := hword.exists_cons
  obtain ⟨tail, htail⟩ : ∃ tail, value ++
      '\n' :: (List.replicate (Line.indentation lines) ' ' ++ Line.behindIndentation lines) = tail := ⟨_, rfl⟩
  have hblank : lexer.cursor.rest = List.replicate 1 ' ' ++ tail := by
    rw [h.rest, Line.behindColon, Line.textOf_eq, hvalue, ← htail]
    rfl
  have hstart : tail = c :: (more ++
      '\n' :: (List.replicate (Line.indentation lines) ' ' ++ Line.behindIndentation lines)) := by
    rw [← htail, hcons, List.cons_append]
  have hfirst : ∀ c ∈ tail.head?, isVisible c = true := by
    rw [hstart]
    simpa using isVisible_of_isNameChar hc
  let middle : Lexer := { lexer with cursor := lexer.cursor.behind 1 tail }
  have hinside : middle.InBlocks columns := ⟨h.indent, h.outers, h.inFlow⟩
  have hgap : skipGap .strict (lexer.cursor.rest.length + 1) (lexer.cursor.column == 0) lexer = some middle :=
    skipGap_spaces hblank (by rw [hblank]; simp) hfirst
  have hseek : lexer.seek .strict = some middle := by
    have hcolumn : (indentOf columns : Int) ≤ (middle.cursor.column : Int) := by
      have := h.column
      simp only [hcolumns, middle, Cursor.behind]
      omega
    rw [seek_of_skipGap hgap hfirst, seek_eq hfirst (by simp [middle, h.keys]),
      hinside.closeBlocks_eq_self hcolumn]
  obtain ⟨next, hscan, hat, hwords⟩ :=
    hinside.plainScalar_value hcolumns htail.symm h.keyAllowed h.keys hword hnext hlines
  refine ⟨next, .of_scan hseek hstart ((scan_word hstart hc).trans hscan) ?_, hat, hwords⟩
  rw [hat.rest, hblank, ← htail]
  simp only [List.length_append, List.length_cons, List.length_replicate]
  omega

/-- **The rest of a line**, which is a value or nothing, and the indentation of the next one. -/
theorem BehindColon.readRest {lexer : Lexer} {columns : List Nat} {line : Line} {lines : List Line}
    (h : lexer.BehindColon columns line lines) (hcolumns : indentOf columns = line.column)
    (hread : line.Readable lines) (hlines : Line.AllReadable lines) :
    ∃ next, Leads lexer next ∧ next.AtLine columns lines ∧
      next.words = lexer.words ++ (line.value.map fun value => Token.scalar value .plain).toList := by
  cases hvalue : line.value with
  | none =>
    obtain ⟨next, hleads, hat, hwords⟩ := h.readEnd hvalue hlines
    exact ⟨next, hleads, hat, hwords.trans (List.append_nil _).symm⟩
  | some value => exact h.readValue hcolumns hvalue hread hlines

/-- **One line.** -/
theorem AtLine.read {lexer : Lexer} {columns : List Nat} {line : Line} {lines : List Line}
    (h : lexer.AtLine columns (line :: lines)) (hread : line.Readable lines) (hlines : Line.AllReadable lines) :
    ∃ next, Leads lexer next ∧ next.AtLine (line.inside columns) lines ∧
      next.words = lexer.words ++ line.tokens columns := by
  obtain ⟨keyed, hfirst, hkeyed⟩ := h.readKey hread
  obtain ⟨marked, hsecond, hmarked, hwords⟩ := hkeyed.readColon (indentOf_outside_le line columns)
  obtain ⟨next, hthird, hnext, hall⟩ :=
    BehindColon.readRest hmarked (indentOf_inside line columns) hread hlines
  refine ⟨next, (hfirst.trans hsecond).trans hthird, hnext, ?_⟩
  rw [hall, hwords, Line.tokens]
  simp only [List.append_assoc]

/-- All blocks end at the end of the text. -/
theorem AtLine.finish {lexer : Lexer} {columns : List Nat} (h : lexer.AtLine columns []) :
    ∃ last, (lexer.closeBlocks 0).finish = some last ∧
      last.words = lexer.words ++ Line.tokensOf columns [] := by
  obtain ⟨hinside, hwords⟩ := h.toInBlocks.closeBlocks 0
  obtain ⟨-, hall⟩ := hinside.closeBlocks (-1)
  have hevery (blocks : List Nat) : blocks.takeWhile (Line.isDeeper (-1)) = blocks := by
    refine List.takeWhile_eq_self_iff.mpr fun block _ => ?_
    rw [Line.isDeeper, decide_eq_true_eq]
    omega
  have hcolumn : (lexer.closeBlocks 0).cursor.column = 0 := by rw [cursor_closeBlocks, h.column]; rfl
  have hkeys : ((lexer.closeBlocks 0).closeBlocks (-1)).keys = none :: [] := by simp [h.keys]
  refine ⟨_, ?_, (words_push { (lexer.closeBlocks 0).closeBlocks (-1) with keys := [none] } .streamEnd
    (lexer.closeBlocks 0).cursor.mark (lexer.closeBlocks 0).cursor.mark).trans ?_⟩
  · rw [Lexer.finish, if_pos hcolumn]
    change ((lexer.closeBlocks 0).closeBlocks (-1)).dropKey.bind _ = _
    rw [dropKey_eq hkeys (by simp)]
    rfl
  · have hsame : ({ (lexer.closeBlocks 0).closeBlocks (-1) with keys := [none] } : Lexer).words =
        ((lexer.closeBlocks 0).closeBlocks (-1)).words := rfl
    have hlength : (columns.takeWhile (Line.isDeeper 0)).length + (columns.dropWhile (Line.isDeeper 0)).length =
        columns.length := by
      rw [← List.length_append, List.takeWhile_append_dropWhile]
    rw [hsame, hall, hwords, hevery, Line.tokensOf, ← hlength, ← List.replicate_append_replicate]
    simp only [List.append_assoc]

/-- **All lines.** -/
theorem AtLine.readAll {lexer : Lexer} {columns : List Nat} {lines : List Line} (h : lexer.AtLine columns lines)
    (hlines : Line.AllReadable lines) {fuel : Nat} (hfuel : lexer.cursor.rest.length < fuel) :
    ∃ last, scanAll .strict fuel lexer = some last ∧
      last.words = lexer.words ++ Line.tokensOf columns lines := by
  induction lines generalizing lexer columns fuel with
  | nil =>
    have hrest : lexer.cursor.rest = [] := h.rest
    have hseek : lexer.seek .strict = some (lexer.closeBlocks 0) := by
      rw [seek_eq (by simp [hrest]) (by simp [h.keys]), h.column]
      rfl
    rw [(Leads.refl lexer).scanAll_eq_finish hseek (by rw [cursor_closeBlocks, hrest]) hfuel]
    exact h.finish
  | cons line lines ih =>
    obtain ⟨next, hleads, hnext, hwords⟩ := h.read hlines.1 hlines.2
    obtain ⟨left, hleft, hscan⟩ := hleads fuel hfuel
    obtain ⟨last, hlast, hall⟩ := ih hnext hlines.2 hleft
    refine ⟨last, hscan.trans hlast, ?_⟩
    rw [hall, hwords, Line.tokensOf, List.append_assoc]

end Lexer

/-- **The tokens of a text in lines.** -/
theorem Token.ofText?_lines {lines : List Line} (hlines : Line.AllReadable lines)
    (hstart : Line.indentation lines = 0) :
    ∃ tokens, Token.ofText? .strict (Line.textOf lines) = some tokens ∧
      tokens.map PlacedToken.token = Line.tokensOf [] lines := by
  have hat : ({ cursor := .ofList (Line.textOf lines) } : Lexer).AtLine [] lines := {
    indent := rfl
    outers := rfl
    inFlow := rfl
    rest := by simp [Cursor.ofList, Line.textOf_eq lines, hstart]
    column := hstart.symm
    keyAllowed := rfl
    keys := rfl }
  obtain ⟨last, hlast, hwords⟩ := hat.readAll hlines (Nat.lt_succ_self _)
  refine ⟨last.tokens.toList, ?_, hwords.trans (by simp [Lexer.words])⟩
  rw [Token.ofText?, readable_eq_some hlines.all_isAllowed, Option.bind_eq_bind, Option.bind_some]
  exact congrArg (Option.bind · _) hlast

end Throttle.Yaml
