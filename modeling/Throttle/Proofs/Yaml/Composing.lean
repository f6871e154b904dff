import Mathlib
import Throttle.Yaml.Document

/-!
# Composing mappings

The tokens of a mapping are put together to a node that says what the tokens say. The values of the mapping
may be anything that can be put together: this is what `Builds` says of a reading and of some tokens, and a
mapping whose values are built is built itself. Every value is read with the fuel that is left, and the tokens
of a value are fewer than those of its mapping, so that as much fuel as there are tokens is enough.

First it is told what one construct comes to, given what its parts come to; then what is built.

## Main definitions

* `Builds` — a reading puts some tokens together, whatever stands behind them.
* `Entry` — the key of an entry, the tokens of its value, and what node the value has to be.

## Main statements

* `builds_scalar`, `builds_empty`, `builds_blockMapping`, `builds_flowMapping` — what is built.
* `Document.ofTokens?_of_builds`, `Document.ofTokens?_nothing` — the document of some tokens.
-/

namespace Throttle.Yaml

namespace Composer

/-! ## One construct -/

section Steps

variable {α β : Type} {composer next behind last : Composer} {token : PlacedToken} {rest : List PlacedToken}
  {fuel : Nat} {block indentless : Bool} {ends : List Token} {mark : Mark} {key value : Node}
  {entries : List (Node × Node)}

theorem bind_eq {read : Compose α} {go : α → Compose β} {result : α}
    (h : read composer = some (result, next)) : (read >>= go) composer = go result next := by
  change (read composer).bind _ = _
  rw [h]
  rfl

theorem peek_eq (h : composer.tokens = token :: rest) : peek composer = some (token, composer) := by
  have hget : (get : Compose Composer) composer = some (composer, composer) := rfl
  rw [peek, bind_eq hget, h]
  rfl

theorem skip_eq (h : composer.tokens = token :: rest) :
    skip composer = some ((), { composer with tokens := rest }) := by
  change some ((), { composer with tokens := composer.tokens.tail }) = _
  rw [h]
  rfl

theorem sees_eq (h : composer.tokens = token :: rest) (words : List Token) :
    sees words composer = some (words.contains token.token, composer) := by
  rw [sees, bind_eq (peek_eq h)]
  rfl

theorem anchor?_eq (h : composer.tokens = token :: rest) (htoken : ∀ name, token.token ≠ .anchor name) :
    anchor? composer = some (none, composer) := by
  obtain ⟨word, start, stop⟩ := token
  rw [anchor?, bind_eq (peek_eq h)]
  cases word <;> first | rfl | exact absurd rfl (htoken _)

theorem tag?_eq (h : composer.tokens = token :: rest) (htoken : ∀ name, token.token ≠ .tag name) :
    tag? composer = some (none, composer) := by
  obtain ⟨word, start, stop⟩ := token
  rw [tag?, bind_eq (peek_eq h)]
  cases word <;> first | rfl | exact absurd rfl (htoken _)

/-- There is neither an anchor nor a tag where the node itself starts. -/
theorem properties_eq (h : composer.tokens = token :: rest) (hanchor : ∀ name, token.token ≠ .anchor name)
    (htag : ∀ name, token.token ≠ .tag name) : properties composer = some ({}, composer) := by
  rw [properties, bind_eq (anchor?_eq h hanchor)]
  exact bind_eq (tag?_eq h htag)

theorem node_scalar {text : List Char} {style : ScalarStyle} (h : composer.tokens = token :: rest)
    (htoken : token.token = .scalar text style) :
    node .strict (fuel + 1) block indentless composer =
      some (.scalar text style {} token.start, { composer with tokens := rest }) := by
  rw [node, bind_eq (peek_eq h)]
  simp only [htoken]
  rw [bind_eq (properties_eq h (by simp [htoken]) (by simp [htoken])), bind_eq (peek_eq h)]
  simp only [htoken]
  rw [bind_eq (skip_eq h)]
  rfl

theorem node_blockMapping (h : composer.tokens = token :: rest) (htoken : token.token = .blockMappingStart)
    (hentries : blockEntries .strict fuel { composer with tokens := rest } = some (entries, next)) :
    node .strict (fuel + 1) true indentless composer = some (.mapping entries {} token.start, next) := by
  rw [node, bind_eq (peek_eq h)]
  simp only [htoken]
  rw [bind_eq (properties_eq h (by simp [htoken]) (by simp [htoken])), bind_eq (peek_eq h)]
  simp only [htoken]
  rw [bind_eq (skip_eq h), bind_eq hentries]
  rfl

theorem node_flowMapping (h : composer.tokens = token :: rest) (htoken : token.token = .flowMappingStart)
    (hentries : flowEntries .strict fuel true { composer with tokens := rest } = some (entries, next)) :
    node .strict (fuel + 1) block indentless composer = some (.mapping entries {} token.start, next) := by
  rw [node, bind_eq (peek_eq h)]
  simp only [htoken]
  rw [bind_eq (properties_eq h (by simp [htoken]) (by simp [htoken])), bind_eq (peek_eq h)]
  simp only [htoken]
  rw [bind_eq (skip_eq h), bind_eq hentries]
  rfl

theorem nodeBefore_empty (h : composer.tokens = token :: rest) (htoken : ends.contains token.token = true) :
    nodeBefore .strict (fuel + 1) ends block indentless mark composer = some (.empty {} mark, composer) := by
  rw [nodeBefore, bind_eq (sees_eq h ends), htoken]
  rfl

theorem nodeBefore_node (h : composer.tokens = token :: rest) (htoken : ends.contains token.token = false) :
    nodeBefore .strict (fuel + 1) ends block indentless mark composer =
      node .strict fuel block indentless composer := by
  rw [nodeBefore, bind_eq (sees_eq h ends), htoken]
  rfl

theorem blockValue_value (h : composer.tokens = token :: rest) (htoken : token.token = .value) :
    blockValue .strict (fuel + 1) composer =
      nodeBefore .strict fuel [.key, .value, .blockEnd] true true token.stop
        { composer with tokens := rest } := by
  rw [blockValue, bind_eq (peek_eq h), if_pos htoken, bind_eq (skip_eq h)]

theorem blockEntries_blockEnd (h : composer.tokens = token :: rest) (htoken : token.token = .blockEnd) :
    blockEntries .strict (fuel + 1) composer = some ([], { composer with tokens := rest }) := by
  rw [blockEntries, bind_eq (peek_eq h)]
  simp only [htoken]
  rw [bind_eq (skip_eq h)]
  rfl

theorem blockEntries_key (h : composer.tokens = token :: rest) (htoken : token.token = .key)
    (hkey : nodeBefore .strict fuel [.key, .value, .blockEnd] true true token.stop
      { composer with tokens := rest } = some (key, behind))
    (hvalue : blockValue .strict fuel behind = some (value, next))
    (hentries : blockEntries .strict fuel next = some (entries, last)) :
    blockEntries .strict (fuel + 1) composer = some ((key, value) :: entries, last) := by
  rw [blockEntries, bind_eq (peek_eq h)]
  simp only [htoken]
  rw [bind_eq (skip_eq h), bind_eq hkey, bind_eq hvalue, bind_eq hentries]
  rfl

theorem flowValue_value (fuel : Nat) (ends : List Token) (h : composer.tokens = token :: rest)
    (htoken : token.token = .value) (hrest : rest ≠ []) :
    ∃ mark, flowValue .strict (fuel + 1) ends composer =
      nodeBefore .strict fuel ends false false mark { composer with tokens := rest } := by
  obtain ⟨later, rest, rfl⟩ := List.exists_cons_of_ne_nil hrest
  refine ⟨later.start, ?_⟩
  rw [flowValue, bind_eq (peek_eq h), if_pos htoken, bind_eq (skip_eq h), bind_eq (peek_eq rfl)]

/-- In front of a closing brace, no comma is asked for. -/
theorem flowEntries_end {first : Bool} (h : composer.tokens = token :: rest)
    (htoken : token.token = .flowMappingEnd) :
    flowEntries .strict (fuel + 1) first composer = some ([], { composer with tokens := rest }) := by
  rw [flowEntries, bind_eq (sees_eq h _), htoken, if_neg (by simp)]
  refine (bind_eq (peek_eq h)).trans ?_
  simp only [htoken]
  rw [bind_eq (skip_eq h)]
  rfl

theorem flowEntries_key {later : PlacedToken} {rest : List PlacedToken}
    (h : composer.tokens = token :: later :: rest) (htoken : token.token = .key)
    (hkey : nodeBefore .strict fuel [.value, .flowEntry, .flowMappingEnd] false false later.start
      { composer with tokens := later :: rest } = some (key, behind))
    (hvalue : flowValue .strict fuel [.flowEntry, .flowMappingEnd] behind = some (value, next))
    (hentries : flowEntries .strict fuel false next = some (entries, last)) :
    flowEntries .strict (fuel + 1) true composer = some ((key, value) :: entries, last) := by
  rw [flowEntries, bind_eq (sees_eq h _), if_neg (by simp)]
  refine (bind_eq (peek_eq h)).trans ?_
  simp only [htoken]
  rw [bind_eq (skip_eq h), bind_eq (peek_eq rfl), bind_eq hkey, bind_eq hvalue, bind_eq hentries]
  rfl

/-- A comma in front of another entry is gone over. -/
theorem flowEntries_comma {later : PlacedToken} {rest : List PlacedToken}
    (h : composer.tokens = token :: later :: rest) (htoken : token.token = .flowEntry) :
    flowEntries .strict (fuel + 1) false composer =
      flowEntries .strict (fuel + 1) true { composer with tokens := later :: rest } := by
  have hmore : (!false && !([Token.flowMappingEnd].contains token.token)) = true := by simp [htoken]
  have hcomma : [Token.flowEntry].contains token.token = true := by simp [htoken]
  rw [flowEntries, flowEntries, bind_eq (sees_eq h _), bind_eq (sees_eq rfl _), if_pos hmore, if_neg (by simp),
    bind_eq (sees_eq h _), if_pos hcomma]
  exact bind_eq (skip_eq h)

end Steps

/-! ## What is built -/

/-- The tokens that are left, without their marks. -/
def words (composer : Composer) : List Token := composer.tokens.map PlacedToken.token

theorem exists_of_words {composer : Composer} {word : Token} {words : List Token}
    (h : composer.words = word :: words) :
    ∃ token rest, composer.tokens = token :: rest ∧ token.token = word ∧
      ({ composer with tokens := rest } : Composer).words = words := by
  obtain ⟨token, rest, htokens, htoken, hrest⟩ := List.map_eq_cons_iff.mp h
  exact ⟨token, rest, htokens, htoken, hrest⟩

/-- With as much fuel as there are tokens, a reading puts them together to something, whatever stands behind. -/
def Builds {α : Type} (read : Nat → Compose α) (words after : List Token) (IsRight : α → Prop) : Prop :=
  ∀ (fuel : Nat) (composer : Composer), words.length ≤ fuel → composer.words = words ++ after →
    ∃ result next, read fuel composer = some (result, next) ∧ next.words = after ∧ IsRight result

theorem Builds.mono {α : Type} {read : Nat → Compose α} {words after : List Token} {IsRight IsFine : α → Prop}
    (h : Builds read words after IsRight) (hfine : ∀ result, IsRight result → IsFine result) :
    Builds read words after IsFine := by
  intro fuel composer hfuel hwords
  obtain ⟨result, next, hread, hnext, hright⟩ := h fuel composer hfuel hwords
  exact ⟨result, next, hread, hnext, hfine result hright⟩

end Composer

/-- The key of an entry, the tokens of its value, and what node the value has to be. -/
structure Entry where
  key : List Char
  value : List Token
  Means : Node → Prop

namespace Entry

/-- The tokens of an entry. -/
def tokens (style : ScalarStyle) (entry : Entry) : List Token :=
  .key :: .scalar entry.key style :: .value :: entry.value

/-- The tokens of a mapping in a block. -/
def blockTokens (entries : List Entry) : List Token :=
  .blockMappingStart :: (entries.flatMap (tokens .plain) ++ [.blockEnd])

/-- The tokens of further entries between braces. -/
def moreTokens (entries : List Entry) : List Token :=
  entries.flatMap fun entry => .flowEntry :: entry.tokens .quoted

@[simp] theorem moreTokens_cons (entry : Entry) (entries : List Entry) :
    moreTokens (entry :: entries) = .flowEntry :: (entry.tokens .quoted ++ moreTokens entries) := rfl

/-- The tokens of entries between braces. -/
def insideTokens : List Entry → List Token
  | [] => []
  | entry :: entries => entry.tokens .quoted ++ moreTokens entries

/-- The tokens of a mapping between braces. -/
def flowTokens (entries : List Entry) : List Token :=
  .flowMappingStart :: (insideTokens entries ++ [.flowMappingEnd])

/-- Two nodes are the key and the value of an entry. -/
structure Describes (style : ScalarStyle) (entry : Entry) (pair : Node × Node) : Prop where
  key : ∃ mark, pair.1 = .scalar entry.key style {} mark
  value : entry.Means pair.2

/-- A node is the mapping with some entries. -/
def IsMapping (style : ScalarStyle) (entries : List Entry) (node : Node) : Prop :=
  ∃ pairs mark, node = .mapping pairs {} mark ∧ List.Forall₂ (Describes style) entries pairs

end Entry

namespace Composer

variable {block indentless : Bool} {ends words after : List Token} {mark : Mark} {IsRight : Node → Prop}
  {entries : List Entry}

theorem builds_scalar (text : List Char) (style : ScalarStyle) :
    Builds (node .strict · block indentless) [.scalar text style] after fun node =>
      ∃ mark, node = .scalar text style {} mark := by
  intro fuel composer hfuel hwords
  obtain ⟨fuel, rfl⟩ := Nat.exists_eq_add_of_le' hfuel
  obtain ⟨token, rest, htokens, htoken, hrest⟩ := exists_of_words hwords
  exact ⟨_, _, node_scalar htokens htoken, hrest, _, rfl⟩

/-- What does not start with an end is built in front of ends, too. -/
theorem Builds.nodeBefore {word : Token} (hword : ends.contains word = false)
    (h : Builds (node .strict · block indentless) (word :: words) after IsRight) :
    Builds (fun fuel => nodeBefore .strict (fuel + 1) ends block indentless mark) (word :: words) after
      IsRight := by
  intro fuel composer hfuel hwords
  obtain ⟨token, rest, htokens, rfl, -⟩ := exists_of_words hwords
  obtain ⟨result, next, hread, hnext⟩ := h fuel composer hfuel hwords
  exact ⟨result, next, (nodeBefore_node htokens hword).trans hread, hnext⟩

/-- In front of an end, nothing is the empty scalar. -/
theorem builds_empty {word : Token} (hword : ends.contains word = true) :
    Builds (fun fuel => Composer.nodeBefore .strict (fuel + 1) ends block indentless mark) [] (word :: after)
      fun node => node = .empty {} mark := by
  intro fuel composer _ hwords
  obtain ⟨token, rest, htokens, rfl, -⟩ := exists_of_words hwords
  exact ⟨_, _, nodeBefore_empty htokens hword, hwords, rfl⟩

/-- The value of an entry is built in front of one of some ends. -/
def BuildsValue (block : Bool) (ends : List Token) (entry : Entry) : Prop :=
  ∀ mark word after, word ∈ ends →
    Builds (fun fuel => Composer.nodeBefore .strict (fuel + 1) ends block block mark) entry.value
      (word :: after) entry.Means

/-! ## Mappings -/

/-- A scalar is built in front of anything that ends a key or a value. -/
theorem builds_scalarBefore (ends : List Token) (text : List Char) (style : ScalarStyle)
    (h : ∀ word ∈ ends, ∀ text style, word ≠ .scalar text style) :
    Builds (fun fuel => Composer.nodeBefore .strict (fuel + 1) ends block indentless mark)
      [.scalar text style] after fun node => ∃ mark, node = .scalar text style {} mark :=
  (builds_scalar text style).nodeBefore (by
    rw [List.contains_eq_mem, decide_eq_false_iff_not]
    exact fun hmem => h _ hmem _ _ rfl)

/-- The entries of a mapping in a block, one after the other. -/
theorem builds_blockEntries (h : ∀ entry ∈ entries, BuildsValue true [.key, .value, .blockEnd] entry) :
    Builds (blockEntries .strict ·) (entries.flatMap (Entry.tokens .plain) ++ [.blockEnd]) after
      (List.Forall₂ (Entry.Describes .plain) entries) := by
  induction entries with
  | nil =>
    intro fuel composer hfuel hwords
    obtain ⟨fuel, rfl⟩ := Nat.exists_eq_add_of_le' hfuel
    obtain ⟨token, rest, htokens, htoken, hrest⟩ := exists_of_words hwords
    exact ⟨_, _, blockEntries_blockEnd htokens htoken, hrest, .nil⟩
  | cons entry entries ih =>
    obtain ⟨hentry, hentries⟩ := List.forall_mem_cons.mp h
    intro fuel composer hfuel hwords
    obtain ⟨word, more, hmore, hword⟩ : ∃ word more,
        entries.flatMap (Entry.tokens .plain) ++ .blockEnd :: after = word :: more ∧
          word ∈ [Token.key, .value, .blockEnd] := by
      cases entries with
      | nil => exact ⟨_, _, rfl, by simp⟩
      | cons entry entries => exact ⟨.key, _, rfl, by simp⟩
    simp only [List.flatMap_cons, Entry.tokens, List.cons_append, List.append_assoc, List.length_cons,
      List.length_append, List.nil_append, List.length_nil, hmore] at hfuel hwords
    obtain ⟨fuel, rfl⟩ := Nat.exists_eq_add_of_le' (show 3 ≤ fuel by omega)
    obtain ⟨token, rest, htokens, htoken, hrest⟩ := exists_of_words hwords
    obtain ⟨key, behind, hkey, hbehind, hscalar⟩ :=
      builds_scalarBefore [.key, .value, .blockEnd] entry.key .plain (by simp) (fuel + 1)
        { composer with tokens := rest } (Nat.le_add_left 1 fuel) hrest
    obtain ⟨colon, rest, hcolon, hvalue, hrest⟩ := exists_of_words hbehind
    obtain ⟨value, next, hread, hnext, hmeans⟩ :=
      hentry colon.stop word more hword fuel { behind with tokens := rest } (by omega) hrest
    obtain ⟨pairs, last, hpairs, hlast, hall⟩ := ih hentries (fuel + 2) next
      (by rw [List.length_append, List.length_singleton]; omega) (by simpa [hmore] using hnext)
    have hcomplete := (blockValue_value hcolon hvalue).trans hread
    exact ⟨_, last, blockEntries_key htokens htoken hkey hcomplete hpairs, hlast, .cons ⟨hscalar, hmeans⟩ hall⟩

/-- An entry between braces, and the entries behind it. -/
theorem builds_flowEntry {entry : Entry} (hentry : BuildsValue false [.flowEntry, .flowMappingEnd] entry)
    (hentries : Builds (flowEntries .strict · false) (Entry.moreTokens entries ++ [.flowMappingEnd]) after
      (List.Forall₂ (Entry.Describes .quoted) entries)) :
    Builds (flowEntries .strict · true) (Entry.insideTokens (entry :: entries) ++ [.flowMappingEnd]) after
      (List.Forall₂ (Entry.Describes .quoted) (entry :: entries)) := by
  intro fuel composer hfuel hwords
  obtain ⟨word, more, hmore, hword⟩ : ∃ word more,
      Entry.moreTokens entries ++ .flowMappingEnd :: after = word :: more ∧
        word ∈ [Token.flowEntry, .flowMappingEnd] := by
    cases entries with
    | nil => exact ⟨_, _, rfl, by simp⟩
    | cons entry entries => exact ⟨.flowEntry, _, rfl, by simp⟩
  simp only [Entry.insideTokens, Entry.tokens, List.cons_append, List.append_assoc, List.length_cons,
    List.length_append, List.nil_append, List.length_nil, hmore] at hfuel hwords
  obtain ⟨fuel, rfl⟩ := Nat.exists_eq_add_of_le' (show 3 ≤ fuel by omega)
  obtain ⟨token, rest, htokens, htoken, hrest⟩ := exists_of_words hwords
  obtain ⟨scalar, _, rfl, -, -⟩ := exists_of_words hrest
  obtain ⟨key, behind, hkey, hbehind, hscalar⟩ :=
    builds_scalarBefore [.value, .flowEntry, .flowMappingEnd] entry.key .quoted (by simp) (fuel + 1) _
      (Nat.le_add_left 1 fuel) hrest
  obtain ⟨colon, rest, hcolon, hvalue, hrest⟩ := exists_of_words hbehind
  obtain ⟨mark, hmark⟩ := flowValue_value (fuel + 1) [.flowEntry, .flowMappingEnd] hcolon hvalue
    (by rintro rfl; exact List.append_ne_nil_of_right_ne_nil _ (List.cons_ne_nil _ _) hrest.symm)
  obtain ⟨value, next, hread, hnext, hmeans⟩ :=
    hentry mark word more hword fuel { behind with tokens := rest } (by omega) hrest
  obtain ⟨pairs, last, hpairs, hlast, hall⟩ := hentries (fuel + 2) next
    (by rw [List.length_append, List.length_singleton]; omega) (by simpa [hmore] using hnext)
  exact ⟨_, last, flowEntries_key htokens htoken hkey (hmark.trans hread) hpairs, hlast,
    .cons ⟨hscalar, hmeans⟩ hall⟩

/-- Further entries between braces, each of them behind a comma. -/
theorem builds_moreEntries (h : ∀ entry ∈ entries, BuildsValue false [.flowEntry, .flowMappingEnd] entry) :
    Builds (flowEntries .strict · false) (Entry.moreTokens entries ++ [.flowMappingEnd]) after
      (List.Forall₂ (Entry.Describes .quoted) entries) := by
  induction entries with
  | nil =>
    intro fuel composer hfuel hwords
    obtain ⟨fuel, rfl⟩ := Nat.exists_eq_add_of_le' hfuel
    obtain ⟨token, rest, htokens, htoken, hrest⟩ := exists_of_words hwords
    exact ⟨_, _, flowEntries_end htokens htoken, hrest, .nil⟩
  | cons entry entries ih =>
    obtain ⟨hentry, hentries⟩ := List.forall_mem_cons.mp h
    intro fuel composer hfuel hwords
    rw [Entry.moreTokens_cons] at hfuel hwords
    obtain ⟨fuel, rfl⟩ := Nat.exists_eq_add_of_le' (Nat.one_le_of_lt hfuel)
    obtain ⟨token, rest, htokens, htoken, hrest⟩ := exists_of_words hwords
    obtain ⟨later, more, rfl, -, -⟩ := exists_of_words hrest
    obtain ⟨pairs, last, hpairs, hlast⟩ :=
      builds_flowEntry hentry (ih hentries) (fuel + 1) _ (Nat.le_of_succ_le hfuel) hrest
    exact ⟨pairs, last, (flowEntries_comma htokens htoken).trans hpairs, hlast⟩

/-- The entries of a mapping between braces. -/
theorem builds_flowEntries (h : ∀ entry ∈ entries, BuildsValue false [.flowEntry, .flowMappingEnd] entry) :
    Builds (flowEntries .strict · true) (Entry.insideTokens entries ++ [.flowMappingEnd]) after
      (List.Forall₂ (Entry.Describes .quoted) entries) := by
  cases entries with
  | nil =>
    intro fuel composer hfuel hwords
    obtain ⟨fuel, rfl⟩ := Nat.exists_eq_add_of_le' hfuel
    obtain ⟨token, rest, htokens, htoken, hrest⟩ := exists_of_words hwords
    exact ⟨_, _, flowEntries_end htokens htoken, hrest, .nil⟩
  | cons entry entries =>
    obtain ⟨hentry, hentries⟩ := List.forall_mem_cons.mp h
    exact builds_flowEntry hentry (builds_moreEntries hentries)

/-- **A mapping in a block.** -/
theorem builds_blockMapping (h : ∀ entry ∈ entries, BuildsValue true [.key, .value, .blockEnd] entry) :
    Builds (node .strict · true indentless) (Entry.blockTokens entries) after
      (Entry.IsMapping .plain entries) := by
  intro fuel composer hfuel hwords
  obtain ⟨fuel, rfl⟩ := Nat.exists_eq_add_of_le' (Nat.one_le_of_lt hfuel)
  obtain ⟨token, rest, htokens, htoken, hrest⟩ := exists_of_words hwords
  obtain ⟨pairs, last, hpairs, hlast, hall⟩ :=
    builds_blockEntries h fuel _ (Nat.le_of_succ_le_succ hfuel) hrest
  exact ⟨_, last, node_blockMapping htokens htoken hpairs, hlast, pairs, _, rfl, hall⟩

/-- **A mapping between braces.** -/
theorem builds_flowMapping (h : ∀ entry ∈ entries, BuildsValue false [.flowEntry, .flowMappingEnd] entry) :
    Builds (node .strict · block indentless) (Entry.flowTokens entries) after
      (Entry.IsMapping .quoted entries) := by
  intro fuel composer hfuel hwords
  obtain ⟨fuel, rfl⟩ := Nat.exists_eq_add_of_le' (Nat.one_le_of_lt hfuel)
  obtain ⟨token, rest, htokens, htoken, hrest⟩ := exists_of_words hwords
  obtain ⟨pairs, last, hpairs, hlast, hall⟩ :=
    builds_flowEntries h fuel _ (Nat.le_of_succ_le_succ hfuel) hrest
  exact ⟨_, last, node_flowMapping htokens htoken hpairs, hlast, pairs, _, rfl, hall⟩

/-! ## Documents -/

/-- Whether a token makes a root start: it is neither a directive nor a document's start, and not the end. -/
def startsRoot : Token → Bool
  | .versionDirective _ _ | .tagDirective _ _ | .otherDirective | .documentStart | .streamEnd => false
  | _ => true

section Roots

variable {composer next : Composer} {token : PlacedToken} {rest : List PlacedToken} {fuel : Nat}

theorem root_of_node {result : Node} (h : composer.tokens = token :: rest)
    (htoken : startsRoot token.token = true)
    (hnode : node .strict fuel true false composer = some (result, next)) :
    root .strict fuel composer = some (some result, next) := by
  have hend : ¬[Token.streamEnd].contains token.token = true := by
    rintro hend
    rw [List.contains_eq_mem, decide_eq_true_eq, List.mem_singleton] at hend
    simp [hend, startsRoot] at htoken
  have hstart : atDocumentStart composer = some (false, composer) := by
    obtain ⟨word, start, stop⟩ := token
    rw [atDocumentStart, bind_eq (peek_eq h)]
    cases word <;> first | rfl | cases htoken
  rw [root, if_neg (by simp [Dialect.strict])]
  refine (bind_eq (sees_eq h _)).trans ?_
  rw [if_neg hend, bind_eq hstart, if_neg (by simp)]
  change (node .strict fuel true false composer).bind _ = _
  rw [hnode]
  rfl

theorem root_nothing (h : composer.tokens = token :: rest) (htoken : token.token = .streamEnd) :
    root .strict fuel composer = some (none, composer) := by
  rw [root, if_neg (by simp [Dialect.strict])]
  refine (bind_eq (sees_eq h _)).trans ?_
  rw [if_pos (by simp [htoken])]
  rfl

/-- Behind the root, the end of the text is all that is left. -/
theorem onlyRoot_eq {root? : Option Node} (hroot : root .strict fuel composer = some (root?, next))
    (hwords : next.words = [.streamEnd]) : onlyRoot .strict fuel composer = some (root?, next) := by
  obtain ⟨token, rest, htokens, htoken, -⟩ := exists_of_words hwords
  have hends : skipEnds fuel next = some ((), next) := by
    cases fuel with
    | zero => rfl
    | succ fuel =>
      rw [skipEnds, bind_eq (sees_eq htokens _), if_neg (by simp [htoken])]
      rfl
  have hlast : sees [.streamEnd] next = some (true, next) := by
    rw [sees_eq htokens, htoken]
    rfl
  rw [onlyRoot, bind_eq hroot]
  cases root? with
  | none =>
    refine (bind_eq hlast).trans ?_
    rfl
  | some result =>
    refine (bind_eq hends).trans ((bind_eq hlast).trans ?_)
    rfl

end Roots

end Composer

namespace Document

open Composer

variable {words : List Token} {tokens : List PlacedToken} {IsRight : Node → Prop}

/-- A text without a token has no root. -/
theorem ofTokens?_nothing (htokens : tokens.map PlacedToken.token = [.streamEnd]) :
    ofTokens? .strict tokens = some ⟨none, []⟩ := by
  obtain ⟨token, rest, rfl, htoken, -⟩ := List.map_eq_cons_iff.mp htokens
  have hroot (fuel : Nat) : onlyRoot .strict fuel { tokens := token :: rest } =
      some (none, { tokens := token :: rest }) := onlyRoot_eq (root_nothing rfl htoken) htokens
  rw [ofTokens?, hroot]
  rfl

/-- **The document of some tokens.** -/
theorem ofTokens?_of_builds {word : Token} (hword : startsRoot word = true)
    (h : Builds (node .strict · true false) (word :: words) [.streamEnd] IsRight)
    (htokens : tokens.map PlacedToken.token = word :: words ++ [.streamEnd]) :
    ∃ root anchored, ofTokens? .strict tokens = some ⟨some root, anchored⟩ ∧ IsRight root := by
  have hlength : (word :: words).length ≤ 4 * tokens.length + 4 := by
    have hlength := congrArg List.length htokens
    simp only [List.length_map, List.length_append, List.length_cons] at hlength ⊢
    omega
  obtain ⟨root, last, hnode, hlast, hright⟩ := h _ { tokens := tokens } hlength htokens
  obtain ⟨token, rest, rfl, rfl, -⟩ := List.map_eq_cons_iff.mp htokens
  refine ⟨root, last.anchored, ?_, hright⟩
  rw [ofTokens?, onlyRoot_eq (root_of_node rfl hword hnode) hlast]
  rfl

end Document

end Throttle.Yaml
