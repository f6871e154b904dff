import Mathlib
import Throttle.Yaml.Token.Lexer

/-!
# Words in a document

Scalars that are a single word of ASCII letters, digits and underscores mean what is written, without quotes as
well as between double ones, whatever the word is. Such a word ends at the end of its line, at the colon behind
a key and, in a flow collection, at a comma or a bracket.

## Main definitions

* `IsWord` — a text that is such a word.

## Main statements

* `scanPlain_word`, `scanPlain_word_line` — a word without quotes, on a line with something else or as its end.
* `scanQuoted_word` — a word between quotes.
-/

namespace Throttle.Yaml

@[simp] theorem strict_indentedFlow : Dialect.strict.indentedFlow = false := rfl

@[simp] theorem strict_spacedColons : Dialect.strict.spacedColons = false := rfl

@[simp] theorem strict_spacedMarks : Dialect.strict.spacedMarks = false := rfl

/-! ## Characters -/

/-- An ASCII letter, a digit or an underscore. -/
def isNameChar (c : Char) : Bool := c.isAlphanum || c == '_'

/-- A text of such characters, of which there is at least one. -/
structure IsWord (text : List Char) : Prop where
  ne_nil : text ≠ []
  isNameChar : ∀ c ∈ text, isNameChar c = true

theorem IsWord.exists_cons {text : List Char} (h : IsWord text) :
    ∃ c rest, text = c :: rest ∧ Yaml.isNameChar c = true := by
  obtain ⟨c, rest, rfl⟩ := List.exists_cons_of_ne_nil h.ne_nil
  exact ⟨c, rest, rfl, h.isNameChar c List.mem_cons_self⟩

theorem beq_eq_false_of_isNameChar {c d : Char} (h : isNameChar c = true) (hd : isNameChar d = false) :
    (c == d) = false := by
  rw [beq_eq_false_iff_ne]
  rintro rfl
  rw [h] at hd
  cases hd

theorem isAllowed_of_isNameChar {c : Char} (h : isNameChar c = true) : isAllowed c = true := by
  have hrange : 32 ≤ c.toNat ∧ c.toNat ≤ 126 := by
    simp only [isNameChar, Char.isAlphanum, Char.isAlpha, Char.isUpper, Char.isLower, Char.isDigit,
      Bool.or_eq_true, Bool.and_eq_true, decide_eq_true_eq, beq_iff_eq, UInt32.le_iff_toNat_le] at h
    obtain ((⟨hlow, hhigh⟩ | ⟨hlow, hhigh⟩) | ⟨hlow, hhigh⟩) | rfl := h
    · exact ⟨Nat.le_trans (by decide) hlow, Nat.le_trans hhigh (by decide)⟩
    · exact ⟨Nat.le_trans (by decide) hlow, Nat.le_trans hhigh (by decide)⟩
    · exact ⟨Nat.le_trans (by decide) hlow, Nat.le_trans hhigh (by decide)⟩
    · decide
  have hprinted : (' ' ≤ c && c ≤ '~') = true := by
    rw [Bool.and_eq_true, decide_eq_true_eq, decide_eq_true_eq, Char.le_def, Char.le_def]
    exact hrange
  simp only [isAllowed, hprinted, Bool.or_true, Bool.true_or]

theorem IsWord.all_isAllowed {text : List Char} (h : IsWord text) : text.all isAllowed = true :=
  List.all_eq_true.mpr fun c hc => isAllowed_of_isNameChar (h.isNameChar c hc)

theorem isBlank_of_isNameChar {c : Char} (h : isNameChar c = true) : isBlank c = false := by
  simp (disch := decide) only [isBlank, beq_eq_false_of_isNameChar h, Bool.or_self]

theorem isBreak_of_isNameChar {c : Char} (h : isNameChar c = true) : Dialect.strict.isBreak c = false := by
  simp (disch := decide) only [Dialect.isBreak, beq_eq_false_of_isNameChar h, Bool.or_self, Bool.and_false]

theorem endsPlain_of_isNameChar {c : Char} (inFlow : Bool) (rest : List Char) (h : isNameChar c = true) :
    Dialect.strict.endsPlain inFlow c rest = false := by
  simp (disch := decide) only [Dialect.endsPlain, isFlowMark, beq_eq_false_of_isNameChar h, Bool.or_self,
    Bool.and_false, Bool.false_and]

theorem atDocumentMark_of_ne {cursor : Cursor} {c d : Char} {rest : List Char} (hrest : cursor.rest = c :: rest)
    (h : (c == d) = false) : cursor.atDocumentMark .strict d = false := by
  rw [Cursor.atDocumentMark, hrest]
  split
  · rename_i heq
    cases heq
    simp [h]
  · simp

/-- No document starts or ends where a word starts. -/
theorem atDocumentEdge_of_isNameChar {cursor : Cursor} {c : Char} {rest : List Char}
    (hrest : cursor.rest = c :: rest) (h : isNameChar c = true) : cursor.atDocumentEdge .strict = false := by
  rw [Cursor.atDocumentEdge, atDocumentMark_of_ne hrest (beq_eq_false_of_isNameChar h (by decide)),
    atDocumentMark_of_ne hrest (beq_eq_false_of_isNameChar h (by decide)), Bool.or_self]

/-! ## Going over text -/

/-- Where a cursor is behind some characters of its line. -/
def Cursor.behind (cursor : Cursor) (count : Nat) (rest : List Char) : Cursor :=
  { cursor with rest, index := cursor.index + count, column := cursor.column + count }

theorem skipMany_append {cursor : Cursor} {text rest : List Char} (h : cursor.rest = text ++ rest) :
    cursor.skipMany text.length = cursor.behind text.length rest := by
  induction text generalizing cursor with
  | nil =>
    obtain ⟨_, index, line, column⟩ := cursor
    cases h
    rfl
  | cons c text ih =>
    obtain ⟨_, index, line, column⟩ := cursor
    cases h
    rw [List.length_cons, Cursor.skipMany, ih rfl]
    simp only [Cursor.skip, Cursor.behind, Nat.add_assoc, Nat.add_comm 1]

/-- Where a cursor is in the next line, behind its indentation. -/
def Cursor.nextLine (cursor : Cursor) (indent : Nat) (rest : List Char) : Cursor :=
  { rest, index := cursor.index + 1 + indent, line := cursor.line + 1, column := indent }

/-- A text that starts neither with a blank nor with the end of a line. -/
def Starts (text : List Char) : Prop :=
  ∀ c ∈ text.head?, isBlank c = false ∧ Dialect.strict.isBreak c = false

theorem scanGap_starts {indent fuel : Nat} {cursor : Cursor} {gap : Gap} (h : Starts cursor.rest) :
    scanGap .strict indent false (fuel + 1) cursor gap = some (gap, cursor) := by
  rw [scanGap]
  split
  · rfl
  · rename_i c _ hrest
    obtain ⟨hblank, hbreak⟩ := h c (by rw [hrest]; rfl)
    simp [hblank, hbreak]

theorem scanGap_space {indent fuel : Nat} {cursor : Cursor} {gap : Gap} {rest : List Char}
    (hbroken : gap.broken = true) (h : cursor.rest = ' ' :: rest) :
    scanGap .strict indent false (fuel + 1) cursor gap = scanGap .strict indent false fuel cursor.skip gap := by
  have hblank : isBlank ' ' = true := by decide
  have hbreak : Dialect.strict.isBreak ' ' = false := by decide
  rw [scanGap]
  simp [h, hbroken, hblank, hbreak]

theorem Cursor.behind_zero {cursor : Cursor} {rest : List Char} (h : cursor.rest = rest) :
    cursor.behind 0 rest = cursor := by
  subst h
  rfl

theorem Cursor.skip_behind {cursor : Cursor} {c : Char} {text rest : List Char} (count : Nat)
    (h : cursor.rest = c :: text) : cursor.skip.behind count rest = cursor.behind (count + 1) rest := by
  rw [Cursor.skip, h]
  simp only [Cursor.behind, Nat.add_assoc, Nat.add_comm 1]

theorem Cursor.rest_skip {cursor : Cursor} {c : Char} {text : List Char} (h : cursor.rest = c :: text) :
    cursor.skip.rest = text := by
  rw [Cursor.skip, h]

/-- The indentation of a line is gone over. -/
theorem scanGap_spaces {indent fuel spaces : Nat} {cursor : Cursor} {gap : Gap} {rest : List Char}
    (hbroken : gap.broken = true) (hrest : Starts rest) (hfuel : spaces < fuel)
    (h : cursor.rest = List.replicate spaces ' ' ++ rest) :
    scanGap .strict indent false fuel cursor gap = some (gap, cursor.behind spaces rest) := by
  induction spaces generalizing fuel cursor with
  | zero =>
    obtain ⟨fuel, rfl⟩ := Nat.exists_eq_succ_of_ne_zero (Nat.ne_of_gt hfuel)
    have hsame : cursor.rest = rest := h
    rw [scanGap_starts (hsame ▸ hrest), Cursor.behind_zero hsame]
  | succ spaces ih =>
    obtain ⟨fuel, rfl⟩ := Nat.exists_eq_succ_of_ne_zero (Nat.ne_zero_of_lt hfuel)
    have hspace : cursor.rest = ' ' :: (List.replicate spaces ' ' ++ rest) := h
    rw [scanGap_space hbroken hspace, ih (Nat.lt_of_succ_lt_succ hfuel) (Cursor.rest_skip hspace),
      Cursor.skip_behind spaces hspace]

/-- The end of a line is gone over, and the indentation of the next one. -/
theorem scanGap_line {indent fuel spaces : Nat} {cursor : Cursor} {rest : List Char} (hrest : Starts rest)
    (hfuel : spaces + 1 < fuel) (h : cursor.rest = '\n' :: (List.replicate spaces ' ' ++ rest)) :
    ∃ gap, gap.broken = true ∧
      scanGap .strict indent false fuel cursor {} = some (gap, cursor.nextLine spaces rest) := by
  obtain ⟨fuel, rfl⟩ := Nat.exists_eq_succ_of_ne_zero (Nat.ne_zero_of_lt hfuel)
  have hbreak : Dialect.strict.isBreak '\n' = true := by decide
  have hsplit : cursor.splitBreak = (['\n'], cursor.nextLine 0 (List.replicate spaces ' ' ++ rest)) := by
    rw [Cursor.splitBreak, h]
    rfl
  refine ⟨Gap.addBreak {} ['\n'], rfl, ?_⟩
  rw [scanGap]
  simp only [h, hbreak, hsplit, if_true]
  rw [scanGap_spaces rfl hrest (Nat.lt_of_succ_lt_succ hfuel) rfl]
  simp [Cursor.behind, Cursor.nextLine]

/-! ## Words without quotes -/

/-- A word goes as far as nothing else begins. -/
theorem plainWord_append {inFlow : Bool} {text rest : List Char} (h : ∀ c ∈ text, isNameChar c = true)
    (hrest : plainWord .strict inFlow rest = some []) :
    plainWord .strict inFlow (text ++ rest) = some text := by
  induction text with
  | nil => exact hrest
  | cons c text ih =>
    obtain ⟨hc, htext⟩ := List.forall_mem_cons.mp h
    rw [List.cons_append, plainWord, ih htext, isBlank_of_isNameChar hc, isBreak_of_isNameChar hc,
      endsPlain_of_isNameChar _ _ hc, beq_eq_false_of_isNameChar hc (by decide)]
    simp

/-- The first round of a scan that starts with a word. -/
theorem scanPlainLoop_word {inFlow : Bool} {indent fuel : Nat} {cursor : Cursor} {text rest : List Char}
    (htext : IsWord text) (hcursor : cursor.rest = text ++ rest)
    (hword : plainWord .strict inFlow rest = some []) :
    scanPlainLoop .strict inFlow indent (fuel + 1) cursor [] {} =
      if !Dialect.strict.atGap rest || rest.isEmpty then some (text, cursor.behind text.length rest, false)
      else (scanGap .strict indent false (fuel + 1) (cursor.behind text.length rest) {}).bind fun after =>
        if !inFlow && decide (after.2.column < indent) then some (text, after.2, after.1.broken)
        else scanPlainLoop .strict inFlow indent fuel after.2 text after.1 := by
  obtain ⟨c, more, hcons, hc⟩ := htext.exists_cons
  have hstart : cursor.rest = c :: (more ++ rest) := by rw [hcursor, hcons, List.cons_append]
  have hhash : (cursor.rest.head? == some '#') = false := by
    rw [hstart]
    exact beq_eq_false_of_isNameChar hc (by decide)
  have htake : plainWord .strict inFlow cursor.rest = some text := by
    rw [hcursor, plainWord_append htext.isNameChar hword]
  have hempty : text.isEmpty = false := by simp [htext.ne_nil]
  rw [scanPlainLoop, atDocumentEdge_of_isNameChar hstart hc, hhash, htake]
  simp only [Bool.or_self, Bool.false_eq_true, if_false, Option.bind_eq_bind, Option.bind_some, hempty,
    skipMany_append hcursor, strict_spacedColons, Bool.and_false, Bool.false_and]
  rfl

/-- A word without quotes that something else follows on its line. -/
theorem scanPlain_word {inFlow : Bool} {indent : Nat} {cursor : Cursor} {text rest : List Char}
    (htext : IsWord text) (hcursor : cursor.rest = text ++ rest)
    (hword : plainWord .strict inFlow rest = some []) (hrest : Dialect.strict.atGap rest = false) :
    scanPlain .strict inFlow indent cursor = some (text, cursor.behind text.length rest, false) := by
  rw [scanPlain, scanPlainLoop_word htext hcursor hword, hrest]
  rfl

/-- A word without quotes that ends its line, where the next line is indented by less than the word would have
to be to go on. -/
theorem scanPlain_word_line {indent spaces : Nat} {cursor : Cursor} {text rest : List Char}
    (htext : IsWord text)
    (hcursor : cursor.rest = text ++ '\n' :: (List.replicate spaces ' ' ++ rest)) (hrest : Starts rest)
    (hindent : spaces < indent) :
    scanPlain .strict false indent cursor =
      some (text, (cursor.behind text.length []).nextLine spaces rest, true) := by
  have hword : plainWord .strict false ('\n' :: (List.replicate spaces ' ' ++ rest)) = some [] := by
    rw [plainWord]
    rfl
  obtain ⟨gap, hbroken, hgap⟩ := @scanGap_line indent (cursor.rest.length + 1) spaces
    (cursor.behind text.length ('\n' :: (List.replicate spaces ' ' ++ rest))) rest hrest
    (by rw [hcursor]; simp only [List.length_append, List.length_cons, List.length_replicate]; omega) rfl
  rw [scanPlain, scanPlainLoop_word htext hcursor hword, hgap]
  simp [Dialect.atGap, Dialect.isBreak, Cursor.nextLine, hindent, hbroken, Cursor.behind]

/-! ## Words between quotes -/

/-- A word goes as far as the closing quote. -/
theorem scanQuotedWord_append {fuel : Nat} {cursor : Cursor} {text rest word : List Char}
    (h : ∀ c ∈ text, isNameChar c = true) (hcursor : cursor.rest = text ++ '"' :: rest)
    (hfuel : text.length < fuel) :
    scanQuotedWord .strict false fuel cursor word =
      some (word ++ text, cursor.behind text.length ('"' :: rest), false) := by
  induction text generalizing fuel cursor word with
  | nil =>
    obtain ⟨fuel, rfl⟩ := Nat.exists_eq_succ_of_ne_zero (Nat.ne_zero_of_lt hfuel)
    have hquote : cursor.rest = '"' :: rest := hcursor
    have hgap : (isBlank '"' || Dialect.strict.isBreak '"') = false := by decide
    rw [scanQuotedWord, hquote]
    simp [hgap, Cursor.behind_zero hquote]
  | cons c text ih =>
    obtain ⟨fuel, rfl⟩ := Nat.exists_eq_succ_of_ne_zero (Nat.ne_zero_of_lt hfuel)
    obtain ⟨hc, htext⟩ := List.forall_mem_cons.mp h
    have hcons : cursor.rest = c :: (text ++ '"' :: rest) := hcursor
    have hquote : (c == '"') = false := beq_eq_false_of_isNameChar hc (by decide)
    have hslash : (c == '\\') = false := beq_eq_false_of_isNameChar hc (by decide)
    rw [scanQuotedWord, hcons]
    simp only [isBlank_of_isNameChar hc, isBreak_of_isNameChar hc, hquote, hslash, Bool.or_self,
      Bool.false_eq_true, if_false, Bool.false_and, Bool.and_false, Bool.not_false]
    rw [ih htext (Cursor.rest_skip hcons) (Nat.lt_of_succ_lt_succ hfuel), Cursor.skip_behind _ hcons,
      List.append_assoc, List.length_cons]
    rfl

/-- A word between quotes. -/
theorem scanQuoted_word {cursor : Cursor} {text rest : List Char} (htext : IsWord text)
    (hcursor : cursor.rest = '"' :: (text ++ '"' :: rest)) :
    scanQuoted .strict false 0 cursor = some (text, cursor.behind (text.length + 2) rest) := by
  have hrest := Cursor.rest_skip hcursor
  obtain ⟨c, more, hcons, hc⟩ := htext.exists_cons
  have hedge := atDocumentEdge_of_isNameChar (hrest.trans (by rw [hcons, List.cons_append])) hc
  have hempty : cursor.skip.rest.isEmpty = false := by
    rw [hrest, hcons]
    rfl
  have hlength : text.length < cursor.rest.length + 1 := by
    rw [hcursor]
    simp only [List.length_append, List.length_cons]
    omega
  have hskip : (cursor.skip.behind text.length ('"' :: rest)).skip = cursor.behind (text.length + 2) rest := by
    rw [Cursor.skip_behind _ hcursor]
    simp only [Cursor.skip, Cursor.behind, Nat.add_assoc]
  rw [scanQuoted, scanQuotedLoop, hedge, hempty, scanQuotedWord_append htext.isNameChar hrest hlength]
  simp only [Nat.not_lt_zero, decide_false, Bool.or_self, Bool.false_eq_true, if_false, Option.bind_eq_bind,
    Option.bind_some, hskip]
  rfl

end Throttle.Yaml
