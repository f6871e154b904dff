import Mathlib
import Throttle.Proofs.Yaml.Composing
import Throttle.Proofs.Yaml.Reading

/-!
# Mappings between braces

A document may be a mapping between braces, whose entries have quoted keys and are set off by commas. Its values
may be anything that can be read inside of braces: words without quotes, and mappings of this kind again. A
mapping is read entry by entry, so that nothing has to be known about the values but that each of them is read
where it stands.

From one mark to the next one a lexer keeps to `InBraces`. It counts the open braces, and it says that nothing
that was read before has to become a key.

## Main definitions

* `Part` — an entry, and the text of its value.
* `Part.mappingText` — a mapping between braces; its tokens are those of its entries.
* `ReadAs` — a text that is read as some tokens inside of braces.

## Main statements

* `readAs_word`, `readAs_mapping` — what is read inside of braces.
* `Token.ofText?_mapping` — the tokens of a text that is a mapping between braces.
-/

namespace Throttle.Yaml

/-- An entry whose value is written in a line. -/
structure Part extends Entry where
  text : List Char

namespace Part

/-- An entry of a mapping between braces. -/
def entryText (part : Part) : List Char := '"' :: (part.key ++ '"' :: ':' :: part.text)

/-- Further entries. -/
def moreText (parts : List Part) : List Char := parts.flatMap fun part => ',' :: part.entryText

/-- The entries of a mapping between braces. -/
def insideText : List Part → List Char
  | [] => []
  | part :: parts => part.entryText ++ moreText parts

/-- A mapping between braces. -/
def mappingText (parts : List Part) : List Char := '\x7b' :: (insideText parts ++ ['\x7d'])

end Part

namespace Lexer

/-- The lexer is inside of some braces, in front of a text. -/
structure InBraces (lexer : Lexer) (depth : Nat) (allowed : Bool) (rest : List Char) : Prop where
  rest : lexer.cursor.rest = rest
  keys : lexer.keys.length = depth + 1
  optional : ∀ key? ∈ lexer.keys, ∀ key ∈ key?, key.required = false
  keyAllowed : lexer.keyAllowed = allowed
  outers : lexer.outers = []
  indent : lexer.indent = -1

namespace InBraces

variable {lexer : Lexer} {depth : Nat} {allowed : Bool} {rest : List Char}

theorem exists_keys (h : lexer.InBraces depth allowed rest) :
    ∃ key? keys, lexer.keys = key? :: keys ∧ keys.length = depth ∧
      (∀ key ∈ key?, key.required = false) ∧ ∀ key? ∈ keys, ∀ key ∈ key?, key.required = false := by
  obtain ⟨key?, keys, hkeys⟩ := List.exists_cons_of_length_pos (by rw [h.keys]; omega : 0 < lexer.keys.length)
  have hoptional := h.optional
  rw [hkeys, List.forall_mem_cons] at hoptional
  exact ⟨key?, keys, hkeys, by simpa [hkeys] using h.keys, hoptional.1, hoptional.2⟩

theorem inFlow (h : lexer.InBraces (depth + 1) allowed rest) : lexer.inFlow = true := by
  rw [Lexer.inFlow, h.keys, decide_eq_true_eq]
  omega

theorem settle (h : lexer.InBraces depth allowed rest) : lexer.settle = lexer :=
  settle_eq (by simp [h.outers])

theorem closeBlocks (h : lexer.InBraces depth allowed rest) (column : Int) :
    lexer.closeBlocks column = lexer := by
  rw [Lexer.closeBlocks, h.outers]
  split
  · rfl
  · obtain ⟨_, _, _, _, _, _, _⟩ := lexer
    cases h.outers
    rfl

/-- Going to the next token, only keys are forgotten. -/
theorem seek (h : lexer.InBraces depth allowed rest) (hrest : ∀ c ∈ rest.head?, isVisible c = true) :
    ∃ middle, lexer.seek .strict = some middle ∧ middle.InBraces depth allowed rest ∧
      middle.cursor = lexer.cursor ∧ middle.words = lexer.words ∧
      middle.keys = lexer.keys.map (Option.filter fun key => !PossibleKey.stale key lexer.cursor) := by
  have hkept : ({ lexer with
      keys := lexer.keys.map (Option.filter fun key => !PossibleKey.stale key lexer.cursor) } :
      Lexer).InBraces depth allowed rest := {
    rest := h.rest
    keys := by rw [List.length_map, h.keys]
    optional := by
      intro key? hkey key hmem
      obtain ⟨old, hold, rfl⟩ := List.mem_map.mp hkey
      exact h.optional old hold key (Option.eq_some_of_filter_eq_some hmem)
    keyAllowed := h.keyAllowed
    outers := h.outers
    indent := h.indent }
  refine ⟨_, ?_, hkept, rfl, rfl, rfl⟩
  rw [Lexer.seek, skipGap_of_isVisible (h.rest ▸ hrest), Option.bind_eq_bind, Option.bind_some,
    dropStaleKeys_eq fun key? hkey key hmem _ => h.optional key? hkey key hmem, Option.bind_some,
    hkept.closeBlocks]

/-- Nothing has to become a key here, since there is no block. -/
theorem required_keyHere (h : lexer.InBraces depth allowed rest) : lexer.keyHere.required = false := by
  have hindent : (lexer.indent == (lexer.cursor.column : Int)) = false := by
    rw [h.indent, beq_eq_false_iff_ne]
    omega
  rw [keyHere, hindent]
  simp

theorem saveKey (h : lexer.InBraces depth allowed rest) :
    ∃ saved, lexer.saveKey = some saved ∧ saved.InBraces depth allowed rest ∧ saved.words = lexer.words := by
  cases hallowed : allowed with
  | false =>
    subst hallowed
    exact ⟨lexer, saveKey_of_not_allowed h.keyAllowed, h, rfl⟩
  | true =>
    subst hallowed
    obtain ⟨key?, keys, hkeys, hlength, hfirst, hothers⟩ := h.exists_keys
    refine ⟨_, saveKey_eq hkeys hfirst h.keyAllowed, ?_, rfl⟩
    exact {
      rest := h.rest
      keys := by simp [hlength]
      optional := List.forall_mem_cons.mpr ⟨by simpa using h.required_keyHere, hothers⟩
      keyAllowed := h.keyAllowed
      outers := h.outers
      indent := h.indent }

/-- A quoted word is read as a scalar, and its place is kept. -/
theorem readQuoted {key : List Char} (h : lexer.InBraces (depth + 1) true ('"' :: (key ++ '"' :: rest)))
    (hkey : IsWord key) (hshort : key.length + 2 ≤ 1024) :
    ∃ next, Leads lexer next ∧ next.InBraces (depth + 1) false rest ∧
      next.words = lexer.words ++ [.scalar key .quoted] ∧
      ∃ place keys, next.keys = some place :: keys ∧ place.position = lexer.words.length ∧
        PossibleKey.stale place next.cursor = false := by
  obtain ⟨middle, hseek, hmiddle, hcursor, hwords, -⟩ := h.seek (by simp [isVisible, Dialect.isBreak])
  obtain ⟨key?, keys, hkeys, hlength, hfirst, hothers⟩ := hmiddle.exists_keys
  have hscan := (scan_quote hmiddle.rest).trans (quotedScalar_eq (saveKey_eq hkeys hfirst hmiddle.keyAllowed)
    (scanQuoted_word hkey hmiddle.rest))
  refine ⟨_, .of_scan hseek hmiddle.rest hscan ?_, ?_, ?_, middle.keyHere, keys, rfl, ?_, ?_⟩
  · rw [h.rest]
    simp only [advance, push, Cursor.behind, List.length_cons, List.length_append]
    omega
  · exact {
      rest := rfl
      keys := by simp [advance, push, hlength]
      optional := List.forall_mem_cons.mpr ⟨by simpa using hmiddle.required_keyHere, hothers⟩
      keyAllowed := rfl
      outers := hmiddle.outers
      indent := hmiddle.indent }
  · rw [← hwords]
    exact words_advance _ _ _
  · rw [← hwords, length_words]
    rfl
  · simp [PossibleKey.stale, keyHere, Cursor.mark, advance, push, Cursor.behind]
    omega

/-- A colon behind a quoted word makes it a key. -/
theorem readColon {words : List Token} {key : List Char} (h : lexer.InBraces (depth + 1) false (':' :: rest))
    (hwords : lexer.words = words ++ [.scalar key .quoted])
    (hkey : ∃ place keys, lexer.keys = some place :: keys ∧ place.position = words.length ∧
      PossibleKey.stale place lexer.cursor = false) :
    ∃ next, Leads lexer next ∧ next.InBraces (depth + 1) false rest ∧
      next.words = words ++ [Token.key, .scalar key .quoted, .value] := by
  obtain ⟨place, keys, hkeys, hposition, hstale⟩ := hkey
  obtain ⟨middle, hseek, hmiddle, hcursor, hsame, hkept⟩ := h.seek (by simp [isVisible, Dialect.isBreak])
  rw [hkeys, List.map_cons, Option.filter_some, hstale, Bool.not_false, if_pos rfl] at hkept
  have hopen : (middle.insertAt place.position .key place.mark).openBlock place.mark.column place.position
      .blockMappingStart place.mark = middle.insertAt place.position .key place.mark :=
    if_pos hmiddle.inFlow
  have hscan := (scan_colon hmiddle.rest (.inr hmiddle.inFlow)).trans (value_eq hkept)
  rw [hopen] at hscan
  have hrest := Cursor.rest_skip hmiddle.rest
  refine ⟨_, .of_scan hseek hmiddle.rest hscan ?_, ?_, ?_⟩
  · rw [h.rest]
    simp only [advance, push, hrest, List.length_cons]
    omega
  · have hlength := hmiddle.keys
    have hoptional := hmiddle.optional
    rw [hkept, List.forall_mem_cons] at hoptional
    rw [hkept] at hlength
    exact {
      rest := hrest
      keys := hlength
      optional := List.forall_mem_cons.mpr ⟨by simp, hoptional.2⟩
      keyAllowed := rfl
      outers := hmiddle.outers
      indent := hmiddle.indent }
  · refine (words_advance _ _ _).trans ?_
    rw [words_insertAt, hsame, hwords, hposition]
    simp

/-- **A quoted key and its colon.** -/
theorem readKey {key : List Char} (h : lexer.InBraces (depth + 1) true ('"' :: (key ++ '"' :: ':' :: rest)))
    (hkey : IsWord key) (hshort : key.length + 2 ≤ 1024) :
    ∃ next, Leads lexer next ∧ next.InBraces (depth + 1) false rest ∧
      next.words = lexer.words ++ [Token.key, .scalar key .quoted, .value] := by
  obtain ⟨quoted, hfirst, hquoted, hwords, hplace⟩ := h.readQuoted hkey hshort
  obtain ⟨next, hsecond, hnext, hall⟩ := hquoted.readColon hwords hplace
  exact ⟨next, hfirst.trans hsecond, hnext, hall⟩

/-- **A comma.** -/
theorem readComma (h : lexer.InBraces (depth + 1) false (',' :: rest)) :
    ∃ next, Leads lexer next ∧ next.InBraces (depth + 1) true rest ∧
      next.words = lexer.words ++ [.flowEntry] := by
  obtain ⟨middle, hseek, hmiddle, hcursor, hwords, -⟩ := h.seek (by simp [isVisible, Dialect.isBreak])
  obtain ⟨key?, keys, hkeys, hlength, hfirst, hothers⟩ := hmiddle.exists_keys
  have hrest := Cursor.rest_skip hmiddle.rest
  have hscan : middle.scan .strict ',' rest = some
      { ({ middle with keys := none :: keys } : Lexer).advance .flowEntry middle.cursor.skip with
        keyAllowed := true } := by
    rw [scan_comma hmiddle.rest, flowEntry, dropKey_eq hkeys hfirst]
    rfl
  refine ⟨_, .of_scan hseek hmiddle.rest hscan ?_, ?_, ?_⟩
  · rw [h.rest]
    simp only [advance, push, hrest, List.length_cons]
    omega
  · exact {
      rest := hrest
      keys := by simp [advance, push, hlength]
      optional := List.forall_mem_cons.mpr ⟨by simp, hothers⟩
      keyAllowed := rfl
      outers := hmiddle.outers
      indent := hmiddle.indent }
  · rw [← hwords]
    exact words_advance _ _ _

/-- **An opening brace.** -/
theorem readOpening (h : lexer.InBraces depth allowed ('\x7b' :: rest)) :
    ∃ next, Leads lexer next ∧ next.InBraces (depth + 1) true rest ∧
      next.words = lexer.words ++ [.flowMappingStart] := by
  obtain ⟨middle, hseek, hmiddle, -, hwords, -⟩ := h.seek (by simp [isVisible, Dialect.isBreak])
  obtain ⟨saved, hsaved, hinside, hsame⟩ := hmiddle.saveKey
  have hrest := Cursor.rest_skip hinside.rest
  have hscan : middle.scan .strict '\x7b' rest = some
      { saved.advance .flowMappingStart saved.cursor.skip with
        keys := none :: saved.keys, keyAllowed := true } := by
    rw [scan_opening hmiddle.rest, openFlow, hsaved]
    simp only [Option.bind_eq_bind, Option.bind_some, deepen_strict]
    rfl
  refine ⟨_, .of_scan hseek hmiddle.rest hscan ?_, ?_, ?_⟩
  · rw [h.rest]
    simp only [advance, push, hrest, List.length_cons]
    omega
  · exact {
      rest := hrest
      keys := by simp [hinside.keys]
      optional := List.forall_mem_cons.mpr ⟨by simp, hinside.optional⟩
      keyAllowed := rfl
      outers := hinside.outers
      indent := hinside.indent }
  · rw [← hwords, ← hsame]
    exact words_advance _ _ _

/-- **A closing brace.** -/
theorem readClosing (h : lexer.InBraces (depth + 1) allowed ('\x7d' :: rest)) :
    ∃ next, Leads lexer next ∧ next.InBraces depth false rest ∧
      next.words = lexer.words ++ [.flowMappingEnd] := by
  obtain ⟨middle, hseek, hmiddle, -, hwords, -⟩ := h.seek (by simp [isVisible, Dialect.isBreak])
  obtain ⟨key?, keys, hkeys, hlength, hfirst, hothers⟩ := hmiddle.exists_keys
  have hrest := Cursor.rest_skip hmiddle.rest
  have hscan : middle.scan .strict '\x7d' rest = some
      { ({ middle with keys := none :: keys } : Lexer).advance .flowMappingEnd middle.cursor.skip with
        keys := keys, keyAllowed := false, closeColon := some middle.cursor.skip.index } := by
    have hflow : (({ middle with keys := none :: keys } : Lexer).advance .flowMappingEnd
        middle.cursor.skip).inFlow = true := by
      simp [Lexer.inFlow, advance, push, hlength]
    rw [scan_closing hmiddle.rest, closeFlow, dropKey_eq hkeys hfirst]
    simp only [Option.bind_eq_bind, Option.bind_some, Cursor.skipTrailer, strict_spacedMarks, Bool.not_false,
      if_true, hflow]
    rfl
  refine ⟨_, .of_scan hseek hmiddle.rest hscan ?_, ?_, ?_⟩
  · rw [h.rest]
    simp only [advance, push, hrest, List.length_cons]
    omega
  · exact {
      rest := hrest
      keys := hlength
      optional := hothers
      keyAllowed := rfl
      outers := hmiddle.outers
      indent := hmiddle.indent }
  · rw [← hwords]
    exact words_advance _ _ _

/-- **A word** in front of a comma or a closing brace. -/
theorem readWord {text : List Char} {c : Char} (h : lexer.InBraces (depth + 1) false (text ++ c :: rest))
    (htext : IsWord text) (hc : isFlowMark c = true) :
    ∃ next, Leads lexer next ∧ next.InBraces (depth + 1) false (c :: rest) ∧
      next.words = lexer.words ++ [.scalar text .plain] := by
  obtain ⟨first, more, hcons, hfirst⟩ := htext.exists_cons
  obtain ⟨middle, hseek, hmiddle, -, hwords, -⟩ := h.seek (by simp [hcons, isVisible_of_isNameChar hfirst])
  have hstart : middle.cursor.rest = first :: (more ++ c :: rest) := by
    rw [hmiddle.rest, hcons, List.cons_append]
  have hword : plainWord .strict true (c :: rest) = some [] := by
    simp [plainWord, Dialect.endsPlain, hc]
  have hgap : Dialect.strict.atGap (c :: rest) = false := by
    simp only [isFlowMark, Bool.or_eq_true, beq_iff_eq] at hc
    rcases hc with (((rfl | rfl) | rfl) | rfl) | rfl <;> rfl
  have hscan := (scan_word hstart hfirst).trans (plainScalar_eq (saveKey_of_not_allowed hmiddle.keyAllowed)
    hmiddle.settle (by rw [hmiddle.inFlow]; exact scanPlain_word htext hmiddle.rest hword hgap))
  refine ⟨_, .of_scan hseek hstart hscan ?_, ?_, ?_⟩
  · rw [h.rest, hcons]
    simp only [advance, push, Cursor.behind, List.length_cons, List.length_append]
    omega
  · exact {
      rest := rfl
      keys := hmiddle.keys
      optional := hmiddle.optional
      keyAllowed := rfl
      outers := hmiddle.outers
      indent := hmiddle.indent }
  · rw [← hwords]
    exact words_advance _ _ _

end InBraces

/-! ## Mappings -/

/-- Inside of braces, in front of a comma or a closing brace, a text is read as some tokens. -/
def ReadAs (text : List Char) (tokens : List Token) : Prop :=
  ∀ (lexer : Lexer) (depth : Nat) (c : Char) (rest : List Char), isFlowMark c = true →
    lexer.InBraces (depth + 1) false (text ++ c :: rest) →
    ∃ next, Leads lexer next ∧ next.InBraces (depth + 1) false (c :: rest) ∧ next.words = lexer.words ++ tokens

theorem readAs_word {text : List Char} (h : IsWord text) : ReadAs text [.scalar text .plain] :=
  fun _ _ _ _ hc hlexer => hlexer.readWord h hc

end Lexer

/-- An entry of a mapping between braces can be read. -/
structure Part.Readable (part : Part) : Prop where
  key : IsWord part.key
  short : part.key.length + 2 ≤ 1024
  allowed : part.text.all isAllowed = true
  text : Lexer.ReadAs part.text part.value

namespace Lexer

namespace InBraces

variable {lexer : Lexer} {depth : Nat} {allowed : Bool} {rest : List Char}

theorem readEntry {part : Part} {c : Char} (h : lexer.InBraces (depth + 1) true (part.entryText ++ c :: rest))
    (hpart : part.Readable) (hc : isFlowMark c = true) :
    ∃ next, Leads lexer next ∧ next.InBraces (depth + 1) false (c :: rest) ∧
      next.words = lexer.words ++ part.tokens .quoted := by
  have htext : part.entryText ++ c :: rest = '"' :: (part.key ++ '"' :: ':' :: (part.text ++ c :: rest)) := by
    simp [Part.entryText]
  rw [htext] at h
  obtain ⟨keyed, hfirst, hkeyed, hwords⟩ := h.readKey hpart.key hpart.short
  obtain ⟨next, hsecond, hnext, hall⟩ := hpart.text keyed depth c rest hc hkeyed
  refine ⟨next, hfirst.trans hsecond, hnext, ?_⟩
  rw [hall, hwords, Entry.tokens, List.append_assoc]
  rfl

/-- What follows an entry starts with a mark, which is all that its value asks for. -/
theorem exists_moreText (parts : List Part) (rest : List Char) :
    ∃ c more, Part.moreText parts ++ '\x7d' :: rest = c :: more ∧ isFlowMark c = true := by
  cases parts with
  | nil => exact ⟨_, _, rfl, rfl⟩
  | cons part parts => exact ⟨',', _, rfl, rfl⟩

/-- Behind an entry there is a comma and another entry, or the closing brace. -/
theorem readMore {parts : List Part}
    (h : lexer.InBraces (depth + 1) false (Part.moreText parts ++ '\x7d' :: rest))
    (hparts : ∀ part ∈ parts, part.Readable) :
    ∃ next, Leads lexer next ∧ next.InBraces depth false rest ∧
      next.words = lexer.words ++ (Entry.moreTokens (parts.map Part.toEntry) ++ [.flowMappingEnd]) := by
  induction parts generalizing lexer with
  | nil => exact h.readClosing
  | cons part parts ih =>
    obtain ⟨hpart, hrest⟩ := List.forall_mem_cons.mp hparts
    obtain ⟨c, more, hmore, hc⟩ := exists_moreText parts rest
    have htext : Part.moreText (part :: parts) ++ '\x7d' :: rest = ',' :: (part.entryText ++ c :: more) := by
      rw [← hmore]
      simp [Part.moreText]
    rw [htext] at h
    obtain ⟨behind, hfirst, hbehind, hwords⟩ := h.readComma
    obtain ⟨entered, hsecond, hentered, hentry⟩ := hbehind.readEntry hpart hc
    obtain ⟨next, hthird, hnext, hall⟩ := ih (hmore ▸ hentered) hrest
    refine ⟨next, (hfirst.trans hsecond).trans hthird, hnext, ?_⟩
    rw [hall, hentry, hwords]
    simp

/-- The entries of a mapping and the closing brace. -/
theorem readInside {parts : List Part}
    (h : lexer.InBraces (depth + 1) true (Part.insideText parts ++ '\x7d' :: rest))
    (hparts : ∀ part ∈ parts, part.Readable) :
    ∃ next, Leads lexer next ∧ next.InBraces depth false rest ∧
      next.words = lexer.words ++ (Entry.insideTokens (parts.map Part.toEntry) ++ [.flowMappingEnd]) := by
  cases parts with
  | nil => exact h.readClosing
  | cons part parts =>
    obtain ⟨hpart, hrest⟩ := List.forall_mem_cons.mp hparts
    obtain ⟨c, more, hmore, hc⟩ := exists_moreText parts rest
    rw [Part.insideText, List.append_assoc, hmore] at h
    obtain ⟨entered, hfirst, hentered, hentry⟩ := h.readEntry hpart hc
    obtain ⟨next, hsecond, hnext, hall⟩ := (hmore ▸ hentered).readMore hrest
    refine ⟨next, hfirst.trans hsecond, hnext, ?_⟩
    rw [hall, hentry, List.map_cons, Entry.insideTokens]
    simp only [List.append_assoc]

/-- **A mapping between braces.** -/
theorem readMapping {parts : List Part} (h : lexer.InBraces depth allowed (Part.mappingText parts ++ rest))
    (hparts : ∀ part ∈ parts, part.Readable) :
    ∃ next, Leads lexer next ∧ next.InBraces depth false rest ∧
      next.words = lexer.words ++ Entry.flowTokens (parts.map Part.toEntry) := by
  rw [Part.mappingText, List.cons_append, List.append_assoc] at h
  obtain ⟨opened, hfirst, hopened, hwords⟩ := h.readOpening
  obtain ⟨next, hsecond, hnext, hall⟩ := hopened.readInside hparts
  refine ⟨next, hfirst.trans hsecond, hnext, ?_⟩
  rw [hall, hwords, Entry.flowTokens, List.append_assoc]
  rfl

/-- Behind the last brace, the end of the text is all that is left to tell. -/
theorem finish (h : lexer.InBraces 0 allowed []) :
    ∃ last, lexer.finish = some last ∧ last.words = lexer.words ++ [.streamEnd] := by
  let cursor : Cursor := if lexer.cursor.column = 0 then lexer.cursor
    else { lexer.cursor with line := lexer.cursor.line + 1, column := 0 }
  have hmoved : ({ lexer with cursor := cursor } : Lexer).InBraces 0 allowed [] := {
    h with rest := by simp only [cursor]; split <;> exact h.rest }
  obtain ⟨key?, keys, hkeys, -, hfirst, -⟩ := hmoved.exists_keys
  refine ⟨_, ?_, words_push { lexer with cursor := cursor, keys := none :: keys } .streamEnd cursor.mark
    cursor.mark⟩
  change (({ lexer with cursor := cursor } : Lexer).closeBlocks (-1)).dropKey.bind _ = _
  rw [hmoved.closeBlocks, dropKey_eq hkeys hfirst]
  rfl

end InBraces

theorem readAs_mapping {parts : List Part} (h : ∀ part ∈ parts, part.Readable) :
    ReadAs (Part.mappingText parts) (Entry.flowTokens (parts.map Part.toEntry)) :=
  fun _ _ _ _ _ hlexer => hlexer.readMapping h

end Lexer

namespace Part

theorem Readable.all_isAllowed {part : Part} (h : part.Readable) : part.entryText.all isAllowed = true := by
  rw [entryText, List.all_cons, List.all_append, h.key.all_isAllowed, List.all_cons, List.all_cons, h.allowed]
  decide

theorem all_isAllowed_moreText {parts : List Part} (h : ∀ part ∈ parts, part.Readable) :
    (moreText parts).all isAllowed = true := by
  induction parts with
  | nil => rfl
  | cons part parts ih =>
    obtain ⟨hpart, hrest⟩ := List.forall_mem_cons.mp h
    rw [moreText, List.flatMap_cons, List.all_append, List.all_cons, hpart.all_isAllowed]
    exact ih hrest

/-- The text of entries that can be read holds no character that is not allowed. -/
theorem all_isAllowed_mappingText {parts : List Part} (h : ∀ part ∈ parts, part.Readable) :
    (mappingText parts).all isAllowed = true := by
  have hinside : (insideText parts).all isAllowed = true := by
    cases parts with
    | nil => rfl
    | cons part parts =>
      obtain ⟨hpart, hrest⟩ := List.forall_mem_cons.mp h
      rw [insideText, List.all_append, hpart.all_isAllowed, all_isAllowed_moreText hrest]
      rfl
  rw [mappingText, List.all_cons, List.all_append, hinside]
  decide

end Part

/-- **The tokens of a text that is a mapping between braces.** -/
theorem Token.ofText?_mapping {parts : List Part} (h : ∀ part ∈ parts, part.Readable) :
    ∃ tokens, Token.ofText? .strict (Part.mappingText parts) = some tokens ∧
      tokens.map PlacedToken.token = Entry.flowTokens (parts.map Part.toEntry) ++ [.streamEnd] := by
  have hstart : ({ cursor := .ofList (Part.mappingText parts) } : Lexer).InBraces 0 true
      (Part.mappingText parts ++ []) := {
    rest := (List.append_nil _).symm
    keys := rfl
    optional := by simp
    keyAllowed := rfl
    outers := rfl
    indent := rfl }
  obtain ⟨behind, hleads, hbehind, hwords⟩ := hstart.readMapping h
  obtain ⟨middle, hseek, hmiddle, -, hsame, -⟩ := hbehind.seek (by simp)
  obtain ⟨last, hlast, hall⟩ := hmiddle.finish
  have hscan := hleads.scanAll_eq_finish hseek hmiddle.rest (Nat.lt_succ_self _)
  refine ⟨last.tokens.toList, ?_, hall.trans (by rw [hsame, hwords]; rfl)⟩
  rw [Token.ofText?, readable_eq_some (Part.all_isAllowed_mappingText h), Option.bind_eq_bind, Option.bind_some]
  exact congrArg (Option.bind · _) (hscan.trans hlast)

end Throttle.Yaml
