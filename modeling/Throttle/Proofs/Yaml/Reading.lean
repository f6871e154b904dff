import Mathlib
import Throttle.Proofs.Yaml.Scalars

/-!
# Reading on

A lexer goes from token to token. Of the tokens that it has read, what they are counts here, and not where they
stand. Whatever a lexer does can be followed token by token, since the number of tokens that it may read at
most is never used up.

## Main definitions

* `Lexer.words` — the tokens that have been read, without their marks.
* `Leads` — scanning from one lexer comes down to scanning from another one.

## Main statements

* `Leads.of_scan` — one token.
* `scan_word`, `scan_colon`, … — which kind of token starts with a character.
-/

namespace Throttle.Yaml

/-- A text whose characters are all allowed is read as a whole. -/
theorem readable_eq_some {text : List Char} (h : text.all isAllowed = true) :
    Dialect.strict.readable text = some text := by
  rw [Dialect.readable]
  exact if_pos h

namespace Lexer

/-! ## Words -/

/-- The tokens that have been read, without their marks. -/
def words (lexer : Lexer) : List Token := lexer.tokens.toList.map PlacedToken.token

theorem length_words (lexer : Lexer) : lexer.words.length = lexer.tokens.size := by simp [words]

@[simp] theorem words_push (lexer : Lexer) (token : Token) (start stop : Mark) :
    (lexer.push token start stop).words = lexer.words ++ [token] := by
  simp [words, push]

theorem words_advance (lexer : Lexer) (token : Token) (next : Cursor) :
    (lexer.advance token next).words = lexer.words ++ [token] := words_push _ _ _ _

theorem words_insertAt (lexer : Lexer) (position : Nat) (token : Token) (mark : Mark) :
    (lexer.insertAt position token mark).words =
      lexer.words.take position ++ token :: lexer.words.drop position := by
  simp [words, insertAt, List.map_take, List.map_drop]

/-! ## Steps -/

/-- Scanning from one lexer comes down to scanning from another one. -/
def Leads (lexer next : Lexer) : Prop :=
  ∀ fuel, lexer.cursor.rest.length < fuel →
    ∃ left, next.cursor.rest.length < left ∧ scanAll .strict fuel lexer = scanAll .strict left next

namespace Leads

variable {lexer middle next : Lexer} {c : Char} {rest : List Char}

theorem refl (lexer : Lexer) : Leads lexer lexer := fun fuel hfuel => ⟨fuel, hfuel, rfl⟩

theorem trans (h : Leads lexer middle) (hnext : Leads middle next) : Leads lexer next := by
  intro fuel hfuel
  obtain ⟨between, hbetween, hfirst⟩ := h fuel hfuel
  obtain ⟨left, hleft, hsecond⟩ := hnext between hbetween
  exact ⟨left, hleft, hfirst.trans hsecond⟩

/-- Two lexers whose next token is the same. -/
theorem of_seek_eq (hseek : lexer.seek .strict = next.seek .strict)
    (hlength : next.cursor.rest.length ≤ lexer.cursor.rest.length) : Leads lexer next := by
  intro fuel hfuel
  refine ⟨fuel, Nat.lt_of_le_of_lt hlength hfuel, ?_⟩
  cases fuel with
  | zero => rfl
  | succ fuel => rw [scanAll, scanAll, hseek]

/-- One token. -/
theorem of_scan (hseek : lexer.seek .strict = some middle) (hrest : middle.cursor.rest = c :: rest)
    (hscan : middle.scan .strict c rest = some next)
    (hlength : next.cursor.rest.length < lexer.cursor.rest.length) : Leads lexer next := by
  intro fuel hfuel
  cases fuel with
  | zero => omega
  | succ fuel =>
    refine ⟨fuel, by omega, ?_⟩
    rw [scanAll, hseek, Option.bind_eq_bind, Option.bind_some, hrest]
    simp only [hscan, Option.bind_some]

/-- The end of the text. -/
theorem scanAll_eq_finish (h : Leads lexer next) (hseek : next.seek .strict = some middle)
    (hrest : middle.cursor.rest = []) {fuel : Nat} (hfuel : lexer.cursor.rest.length < fuel) :
    scanAll .strict fuel lexer = middle.finish := by
  obtain ⟨left, hleft, hscan⟩ := h fuel hfuel
  cases left with
  | zero => omega
  | succ left => rw [hscan, scanAll, hseek, Option.bind_eq_bind, Option.bind_some, hrest]

end Leads

/-! ## Between tokens -/

/-- A character that is gone over between tokens by nobody. -/
def isVisible (c : Char) : Bool :=
  !(c == ' ' || c == '\ufeff' || c == '\t' || c == '#' || Dialect.strict.isBreak c)

theorem isVisible_of_isNameChar {c : Char} (h : isNameChar c = true) : isVisible c = true := by
  simp (disch := decide) only [isVisible, beq_eq_false_of_isNameChar h, isBreak_of_isNameChar h, Bool.or_self,
    Bool.not_false]

/-- Where something visible stands, or nothing at all, there is no gap. -/
theorem skipGap_of_isVisible {fuel : Nat} {leading : Bool} {lexer : Lexer}
    (h : ∀ c ∈ lexer.cursor.rest.head?, isVisible c = true) :
    skipGap .strict fuel leading lexer = some lexer := by
  cases fuel with
  | zero => rfl
  | succ fuel =>
    rw [skipGap]
    split
    · rfl
    · rename_i c rest hrest
      have hc := h c (by rw [hrest]; rfl)
      simp only [isVisible, Bool.not_eq_true', Bool.or_eq_false_iff] at hc
      simp [hc.1.1.1.1, hc.1.1.1.2, hc.1.1.2, hc.1.2, hc.2]

theorem skipGap_space {fuel : Nat} {leading : Bool} {lexer : Lexer} {rest : List Char}
    (h : lexer.cursor.rest = ' ' :: rest) :
    skipGap .strict (fuel + 1) leading lexer =
      skipGap .strict fuel leading { lexer with cursor := lexer.cursor.skip } := by
  rw [skipGap]
  simp [h]

theorem skipGap_spaces {fuel spaces : Nat} {leading : Bool} {lexer : Lexer} {rest : List Char}
    (h : lexer.cursor.rest = List.replicate spaces ' ' ++ rest) (hfuel : spaces < fuel)
    (hrest : ∀ c ∈ rest.head?, isVisible c = true) :
    skipGap .strict fuel leading lexer = some { lexer with cursor := lexer.cursor.behind spaces rest } := by
  induction spaces generalizing fuel lexer with
  | zero =>
    have hsame : lexer.cursor.rest = rest := h
    rw [skipGap_of_isVisible (hsame ▸ hrest), Cursor.behind_zero hsame]
  | succ spaces ih =>
    obtain ⟨fuel, rfl⟩ := Nat.exists_eq_succ_of_ne_zero (Nat.ne_zero_of_lt hfuel)
    have hspace : lexer.cursor.rest = ' ' :: (List.replicate spaces ' ' ++ rest) := h
    rw [skipGap_space hspace, ih (Cursor.rest_skip hspace) (Nat.lt_of_succ_lt_succ hfuel)]
    simp only [Cursor.skip_behind spaces hspace]

/-- The end of a line is gone over, and the indentation of the next one. -/
theorem skipGap_line {fuel spaces : Nat} {leading : Bool} {lexer : Lexer} {rest : List Char}
    (h : lexer.cursor.rest = '\n' :: (List.replicate spaces ' ' ++ rest)) (hfuel : spaces + 1 < fuel)
    (hrest : ∀ c ∈ rest.head?, isVisible c = true) (hflow : lexer.inFlow = false) :
    skipGap .strict fuel leading lexer =
      some { lexer with cursor := lexer.cursor.nextLine spaces rest, keyAllowed := true } := by
  obtain ⟨fuel, rfl⟩ := Nat.exists_eq_succ_of_ne_zero (Nat.ne_zero_of_lt hfuel)
  have hbreak : Dialect.strict.isBreak '\n' = true := by decide
  have hsplit : lexer.cursor.splitBreak.2 = lexer.cursor.nextLine 0 (List.replicate spaces ' ' ++ rest) := by
    rw [Cursor.splitBreak, h]
    rfl
  have hsame : ∀ allowed, skipGap .strict fuel true
      { lexer with
        cursor := lexer.cursor.nextLine 0 (List.replicate spaces ' ' ++ rest), keyAllowed := allowed } =
      some { lexer with cursor := lexer.cursor.nextLine spaces rest, keyAllowed := allowed } := by
    intro allowed
    rw [skipGap_spaces rfl (Nat.lt_of_succ_lt_succ hfuel) hrest]
    simp only [Cursor.behind, Cursor.nextLine, Nat.add_zero, Nat.zero_add]
  rw [skipGap]
  simp [h, hbreak, hsplit, hflow, hsame]

/-! ## Possible keys -/

/-- The key that may start here. -/
def keyHere (lexer : Lexer) : PossibleKey where
  required := !lexer.inFlow && lexer.indent == lexer.cursor.column &&
    (lexer.outers.head?.map Outer.closesBlock).getD false
  position := lexer.tokens.size
  index := lexer.cursor.index
  mark := lexer.cursor.mark

/-- A key that is not required is dropped without a fault. -/
theorem dropKey_eq {lexer : Lexer} {key? : Option PossibleKey} {keys : List (Option PossibleKey)}
    (hkeys : lexer.keys = key? :: keys) (h : ∀ key ∈ key?, key.required = false) :
    lexer.dropKey = some { lexer with keys := none :: keys } := by
  rw [dropKey, hkeys]
  cases key? with
  | none =>
    obtain ⟨_, _, _, _, _, _, _⟩ := lexer
    cases hkeys
    rfl
  | some key => simp [h key rfl]

theorem saveKey_eq {lexer : Lexer} {key? : Option PossibleKey} {keys : List (Option PossibleKey)}
    (hkeys : lexer.keys = key? :: keys) (h : ∀ key ∈ key?, key.required = false)
    (hallowed : lexer.keyAllowed = true) :
    lexer.saveKey = some { lexer with keys := some lexer.keyHere :: keys } := by
  have hflow : ({ lexer with keys := none :: keys } : Lexer).inFlow = lexer.inFlow := by
    rw [inFlow, inFlow, hkeys]
    rfl
  rw [saveKey, if_neg (by simp [hallowed]), dropKey_eq hkeys h]
  simp only [Option.bind_eq_bind, Option.bind_some, hflow, List.tail_cons]
  rfl

theorem saveKey_of_not_allowed {lexer : Lexer} (h : lexer.keyAllowed = false) :
    lexer.saveKey = some lexer := by
  rw [saveKey, h]
  rfl

theorem mapM_eq_some_map {α β : Type} {f : α → Option β} {g : α → β} {items : List α}
    (h : ∀ item ∈ items, f item = some (g item)) : items.mapM f = some (items.map g) := by
  induction items with
  | nil => rfl
  | cons item items ih =>
    obtain ⟨hitem, hitems⟩ := List.forall_mem_cons.mp h
    rw [List.mapM_cons, hitem, ih hitems]
    rfl

/-- The keys that are not too far away are kept. -/
theorem dropStaleKeys_eq {lexer : Lexer}
    (h : ∀ key? ∈ lexer.keys, ∀ key ∈ key?, PossibleKey.stale key lexer.cursor = true → key.required = false) :
    lexer.dropStaleKeys .strict = some { lexer with
      keys := lexer.keys.map (Option.filter fun key => !PossibleKey.stale key lexer.cursor) } := by
  rw [dropStaleKeys, if_neg (by simp), mapM_eq_some_map (g := Option.filter fun key =>
    !PossibleKey.stale key lexer.cursor)]
  · rfl
  · intro key? hkey
    cases key? with
    | none => rfl
    | some key =>
      cases hstale : PossibleKey.stale key lexer.cursor with
      | false => simp [hstale, Option.filter_some]
      | true => simp [hstale, Option.filter_some, h _ hkey key rfl hstale]

/-- Outside of collections, and directly inside of a block, there is nothing to settle. -/
theorem settle_eq {lexer : Lexer} (h : ∀ outer ∈ lexer.outers.head?, outer.closesBlock = true) :
    lexer.settle = lexer := by
  obtain ⟨_, _, _, outers, _, _, _⟩ := lexer
  cases outers with
  | nil => rfl
  | cons outer outers => simp [settle, blockIndent, h outer rfl]

/-- Going over a gap first makes no difference. -/
theorem seek_of_skipGap {lexer behind : Lexer}
    (h : skipGap .strict (lexer.cursor.rest.length + 1) (lexer.cursor.column == 0) lexer = some behind)
    (hrest : ∀ c ∈ behind.cursor.rest.head?, isVisible c = true) :
    lexer.seek .strict = behind.seek .strict := by
  rw [seek, seek, h, skipGap_of_isVisible hrest]

/-- Where something visible stands and no key is too far away, only blocks can end. -/
theorem seek_eq {lexer : Lexer} (hrest : ∀ c ∈ lexer.cursor.rest.head?, isVisible c = true)
    (hkeys : ∀ key? ∈ lexer.keys, ∀ key ∈ key?, PossibleKey.stale key lexer.cursor = false) :
    lexer.seek .strict = some (lexer.closeBlocks lexer.cursor.column) := by
  have hkept : lexer.keys.map (Option.filter fun key => !PossibleKey.stale key lexer.cursor) = lexer.keys := by
    refine (List.map_congr_left fun key? hkey => ?_).trans (List.map_id lexer.keys)
    cases key? with
    | none => rfl
    | some key => rw [Option.filter_some, hkeys _ hkey key rfl, Bool.not_false, if_pos rfl, id]
  rw [seek, skipGap_of_isVisible hrest, Option.bind_eq_bind, Option.bind_some, dropStaleKeys_eq, hkept]
  · rfl
  · intro key? hkey key hmem hstale
    rw [hkeys key? hkey key hmem] at hstale
    cases hstale

theorem deepen_strict (lexer : Lexer) : lexer.deepen .strict = lexer := by
  rw [deepen]
  split <;> simp

/-! ## Scalars and values -/

theorem plainScalar_eq {lexer saved : Lexer} {text : List Char} {next : Cursor} {broken : Bool}
    (hsaved : lexer.saveKey = some saved) (hsettle : saved.settle = saved)
    (hscan : scanPlain .strict saved.inFlow (saved.indent + 1).toNat saved.cursor = some (text, next, broken)) :
    lexer.plainScalar .strict =
      some { saved.advance (.scalar text .plain) next with keyAllowed := broken } := by
  rw [plainScalar, hsaved]
  simp only [Option.bind_eq_bind, Option.bind_some, hsettle, strict_indentedFlow, Bool.false_and,
    Bool.false_eq_true, if_false, hscan]

theorem quotedScalar_eq {lexer saved : Lexer} {text : List Char} {next : Cursor}
    (hsaved : lexer.saveKey = some saved)
    (hscan : scanQuoted .strict false 0 saved.cursor = some (text, next)) :
    lexer.quotedScalar .strict false =
      some { saved.advance (.scalar text .quoted) next with keyAllowed := false } := by
  rw [quotedScalar, hsaved]
  simp only [Option.bind_eq_bind, Option.bind_some, strict_indentedFlow, Bool.false_eq_true, if_false, hscan,
    strict_spacedMarks, Bool.not_false, if_true]

/-- The colon behind a possible key makes it one. -/
theorem value_eq {lexer : Lexer} {key : PossibleKey} {keys : List (Option PossibleKey)}
    (hkeys : lexer.keys = some key :: keys) :
    lexer.value .strict = some
      { ((lexer.insertAt key.position .key key.mark).openBlock key.mark.column key.position .blockMappingStart
          key.mark).advance .value lexer.cursor.skip with keys := none :: keys, keyAllowed := false } := by
  rw [value, hkeys]
  simp only [strict_spacedMarks, Bool.false_and, Bool.false_eq_true, if_false, deepen_strict]

/-! ## What starts with a character -/

section Starting

variable {lexer : Lexer} {c : Char} {rest : List Char}

theorem scan_word (hrest : lexer.cursor.rest = c :: rest) (hc : isNameChar c = true) :
    lexer.scan .strict c rest = lexer.plainScalar .strict := by
  have hmarks (d : Char) (hd : isNameChar d = false) : lexer.cursor.atDocumentMark .strict d = false :=
    atDocumentMark_of_ne hrest (beq_eq_false_of_isNameChar hc hd)
  have hplain : startsPlain .strict c = true := by
    simp (disch := decide) only [startsPlain, isBlank, beq_eq_false_of_isNameChar hc, Bool.or_self,
      Bool.not_false, Bool.and_true, Bool.or_true]
  simp (disch := decide) only [scan, beq_eq_false_of_isNameChar hc, hmarks, strict_indentedFlow, hplain,
    Bool.false_and, Bool.false_eq_true, if_false, if_true]

/-- A character that marks something is no document's start or end. -/
theorem atDocumentMark_of_mark (hrest : lexer.cursor.rest = c :: rest) (hc : (c == '-') = false)
    (hc' : (c == '.') = false) :
    lexer.cursor.atDocumentMark .strict '-' = false ∧ lexer.cursor.atDocumentMark .strict '.' = false :=
  ⟨atDocumentMark_of_ne hrest hc, atDocumentMark_of_ne hrest hc'⟩

theorem scan_colon (hrest : lexer.cursor.rest = ':' :: rest)
    (h : Dialect.strict.atGap rest = true ∨ lexer.inFlow = true) :
    lexer.scan .strict ':' rest = lexer.value .strict := by
  obtain ⟨hhyphen, hpoint⟩ := atDocumentMark_of_mark hrest (by decide) (by decide)
  rcases h with h | h <;> simp [scan, hhyphen, hpoint, h]

theorem scan_quote (hrest : lexer.cursor.rest = '"' :: rest) :
    lexer.scan .strict '"' rest = lexer.quotedScalar .strict false := by
  obtain ⟨hhyphen, hpoint⟩ := atDocumentMark_of_mark hrest (by decide) (by decide)
  simp [scan, hhyphen, hpoint]

theorem scan_comma (hrest : lexer.cursor.rest = ',' :: rest) :
    lexer.scan .strict ',' rest = lexer.flowEntry .strict := by
  obtain ⟨hhyphen, hpoint⟩ := atDocumentMark_of_mark hrest (by decide) (by decide)
  simp [scan, hhyphen, hpoint]

theorem scan_opening (hrest : lexer.cursor.rest = '\x7b' :: rest) :
    lexer.scan .strict '\x7b' rest = lexer.openFlow .strict .flowMappingStart := by
  obtain ⟨hhyphen, hpoint⟩ := atDocumentMark_of_mark hrest (by decide) (by decide)
  simp [scan, hhyphen, hpoint]

theorem scan_closing (hrest : lexer.cursor.rest = '\x7d' :: rest) :
    lexer.scan .strict '\x7d' rest = lexer.closeFlow .strict .flowMappingEnd := by
  obtain ⟨hhyphen, hpoint⟩ := atDocumentMark_of_mark hrest (by decide) (by decide)
  simp [scan, hhyphen, hpoint]

end Starting

end Lexer

end Throttle.Yaml
