import Mathlib
import Throttle.Proofs.Settings.Outline
import Throttle.Proofs.Yaml.Braces
import Throttle.Proofs.Yaml.Lines
import Throttle.Settings.Written

/-!
# Settings read back from their written forms

An outline can be written as indented lines and between braces. Either text is read as the tokens of the
outline, the tokens are put together to a document that says what the outline tells, and so the settings of
the outline are read from it. The two written forms of settings are those of the outline that tells all of
them.

## Main definitions

* `Outline.block`, `Outline.braced` — an outline as indented lines, and between braces.
* `Outline.ofSettings` — the outline that tells all settings.

## Main statements

* `Outline.ofYaml_block`, `Outline.ofYaml_braced` — an outline is read back from its written forms.
-/

namespace Throttle

open Yaml (Composer Document Entry Line Node Part Token)
open Yaml.Composer (Builds BuildsValue builds_blockMapping builds_empty builds_flowMapping builds_scalarBefore)

namespace Outline

/-! ## Numbers -/

/-- A number in a section. -/
def numberEntry (entry : SettingName × UInt64) : Entry where
  key := entry.1.fieldName.toList
  value := [.scalar (Settings.word entry.2) .plain]
  Means node := ∃ mark, node = .scalar (Settings.word entry.2) .plain {} mark

/-- A number in a line. -/
def numberLine (entry : SettingName × UInt64) : Line :=
  ⟨2, entry.1.fieldName.toList, some (Settings.word entry.2)⟩

/-- A number between braces. -/
def numberPart (entry : SettingName × UInt64) : Part where
  toEntry := numberEntry entry
  text := Settings.word entry.2

theorem isWord_fieldName (name : SettingName) : Yaml.IsWord name.fieldName.toList := by
  cases name <;> exact ⟨by simp [SettingName.fieldName], by simp [SettingName.fieldName, Yaml.isNameChar]⟩

theorem length_fieldName_le (name : SettingName) : name.fieldName.toList.length ≤ 19 := by
  cases name <;> simp [SettingName.fieldName]

theorem isWord_word (n : UInt64) : Yaml.IsWord (Settings.word n) where
  ne_nil := Number.decimalDigits_ne_nil _
  isNameChar := by
    intro c hc
    have hdigit := Number.isDigit_of_mem_decimalDigits hc
    rw [Number.isDigit_eq] at hdigit
    simp [Yaml.isNameChar, Char.isAlphanum, hdigit]

theorem buildsValue_numberEntry (entry : SettingName × UInt64) (block : Bool) (ends : List Token)
    (h : ∀ word ∈ ends, ∀ text style, word ≠ .scalar text style) : BuildsValue block ends (numberEntry entry) :=
  fun _ _ _ _ => builds_scalarBefore ends _ .plain h

theorem readable_numberPart (entry : SettingName × UInt64) : (numberPart entry).Readable where
  key := isWord_fieldName entry.1
  short := Nat.le_trans (Nat.add_le_add_right (length_fieldName_le entry.1) 2) (by decide)
  allowed := (isWord_word entry.2).all_isAllowed
  text := Yaml.Lexer.readAs_word (isWord_word entry.2)

/-! ## Sections -/

/-- A section in a block. Without numbers, nothing stands behind its title. -/
def blockEntry (sect : Section) : Entry where
  key := sect.title.toList
  value := if sect.numbers = [] then [] else Entry.blockTokens (sect.numbers.map numberEntry)
  Means node := Entry.IsMapping .plain (sect.numbers.map numberEntry) node ∨
    (sect.numbers = [] ∧ ∃ mark, node = .empty {} mark)

/-- The title of a section in a line. -/
def titleLine (sect : Section) : Line := ⟨0, sect.title.toList, none⟩

/-- The lines of a section. -/
def sectionLines (sect : Section) : List Line := titleLine sect :: sect.numbers.map numberLine

/-- A section between braces. -/
def sectionPart (sect : Section) : Part where
  key := sect.title.toList
  value := Entry.flowTokens (sect.numbers.map numberEntry)
  Means := Entry.IsMapping .quoted (sect.numbers.map numberEntry)
  text := Part.mappingText (sect.numbers.map numberPart)

theorem isWord_title (sect : Section) : Yaml.IsWord sect.title.toList := by
  obtain h | h := sect.title_eq <;> rw [h] <;> exact ⟨by simp, by simp [Yaml.isNameChar]⟩

theorem length_title_le (sect : Section) : sect.title.toList.length ≤ 7 := by
  obtain h | h := sect.title_eq <;> rw [h] <;> simp

theorem buildsValue_numberEntries (sect : Section) (block : Bool) (ends : List Token)
    (h : ∀ word ∈ ends, ∀ text style, word ≠ .scalar text style) :
    ∀ entry ∈ sect.numbers.map numberEntry, BuildsValue block ends entry :=
  List.forall_mem_map.mpr fun entry _ => buildsValue_numberEntry entry block ends h

theorem readable_numberParts (sect : Section) : ∀ part ∈ sect.numbers.map numberPart, part.Readable :=
  List.forall_mem_map.mpr fun entry _ => readable_numberPart entry

theorem buildsValue_blockEntry (sect : Section) :
    BuildsValue true [.key, .value, .blockEnd] (blockEntry sect) := by
  intro mark word after hword
  rw [blockEntry]
  by_cases hnumbers : sect.numbers = []
  · simp only [if_pos hnumbers]
    exact (builds_empty (List.contains_iff_mem.mpr hword)).mono fun node hnode => .inr ⟨hnumbers, mark, hnode⟩
  · simp only [if_neg hnumbers]
    exact (Builds.nodeBefore (by decide) (builds_blockMapping
      (buildsValue_numberEntries sect true _ (by simp)))).mono fun node hnode => .inl hnode

theorem buildsValue_sectionPart (sect : Section) :
    BuildsValue false [.flowEntry, .flowMappingEnd] (sectionPart sect).toEntry := fun _ _ _ _ =>
  (builds_flowMapping (buildsValue_numberEntries sect false _ (by simp))).nodeBefore (by decide)

theorem readable_sectionPart (sect : Section) : (sectionPart sect).Readable where
  key := isWord_title sect
  short := Nat.le_trans (Nat.add_le_add_right (length_title_le sect) 2) (by decide)
  allowed := Part.all_isAllowed_mappingText (readable_numberParts sect)
  text := by
    have hread := Yaml.Lexer.readAs_mapping (readable_numberParts sect)
    rw [List.map_map] at hread
    exact hread

/-! ## Indented lines -/

/-- The lines of some sections. -/
def linesOf (sections : List Section) : List Line := sections.flatMap sectionLines

/-- An outline as indented lines. -/
def block (outline : Outline) : String := .ofList (Line.textOf (linesOf outline.sections))

/-- Behind the numbers of a section, its block ends. -/
theorem tokensOf_linesOf (sections : List Section) :
    Line.tokensOf [2, 0] (linesOf sections) = .blockEnd :: Line.tokensOf [0] (linesOf sections) := by
  cases sections with
  | nil => rfl
  | cons sect sections =>
    have hbehind : (titleLine sect).column < 2 := Nat.zero_lt_two
    exact Line.tokensOf_behind hbehind

theorem tokensOf_numberLines (numbers : List (SettingName × UInt64)) (sections : List Section) :
    Line.tokensOf [0] (numbers.map numberLine ++ linesOf sections) =
      (if numbers = [] then [] else Entry.blockTokens (numbers.map numberEntry)) ++
        Line.tokensOf [0] (linesOf sections) := by
  cases numbers with
  | nil => rfl
  | cons number numbers =>
    have hdeeper : 0 < (numberLine number).column := Nat.zero_lt_two
    have hbeside : ∀ line ∈ numbers.map numberLine, line.column = 2 := List.forall_mem_map.mpr fun _ _ => rfl
    rw [if_neg (List.cons_ne_nil number numbers), List.map_cons, List.cons_append, Line.tokensOf_deeper hdeeper]
    rw [show (numberLine number).column = 2 from rfl, Line.tokensOf_append hbeside, tokensOf_linesOf]
    simp [Entry.blockTokens, List.flatMap_map, numberLine, numberEntry, Entry.tokens, Line.entryTokens]

theorem tokensOf_sectionLines (sect : Section) (sections : List Section) :
    Line.tokensOf [0] (linesOf (sect :: sections)) =
      (blockEntry sect).tokens .plain ++ Line.tokensOf [0] (linesOf sections) := by
  have htitle : Line.tokensOf [0] (linesOf (sect :: sections)) = (titleLine sect).entryTokens ++
      Line.tokensOf [0] (sect.numbers.map numberLine ++ linesOf sections) := Line.tokensOf_beside
  rw [htitle, tokensOf_numberLines]
  rfl

theorem tokensOf_entries (sections : List Section) :
    Line.tokensOf [0] (linesOf sections) =
      (sections.map blockEntry).flatMap (Entry.tokens .plain) ++ [.blockEnd, .streamEnd] := by
  induction sections with
  | nil => rfl
  | cons sect sections ih =>
    rw [tokensOf_sectionLines, ih, List.map_cons, List.flatMap_cons, List.append_assoc]

/-- The tokens of an outline as indented lines. -/
theorem tokensOf_block {sections : List Section} (h : sections ≠ []) :
    Line.tokensOf [] (linesOf sections) = Entry.blockTokens (sections.map blockEntry) ++ [.streamEnd] := by
  obtain ⟨sect, sections, rfl⟩ := List.exists_cons_of_ne_nil h
  have hfirst : Line.tokensOf [] (linesOf (sect :: sections)) =
      .blockMappingStart :: Line.tokensOf [0] (linesOf (sect :: sections)) := Line.tokensOf_first
  rw [hfirst, tokensOf_entries, Entry.blockTokens, List.cons_append, List.append_assoc]
  rfl

theorem indentation_linesOf (sections : List Section) : Line.indentation (linesOf sections) = 0 := by
  cases sections <;> rfl

theorem allReadable_numberLines {numbers : List (SettingName × UInt64)} {lines : List Line}
    (hindentation : Line.indentation lines ≤ 2) (h : Line.AllReadable lines) :
    Line.AllReadable (numbers.map numberLine ++ lines) := by
  induction numbers with
  | nil => exact h
  | cons number numbers ih =>
    refine ⟨⟨isWord_fieldName number.1, Nat.le_trans (length_fieldName_le number.1) (by decide), ?_⟩, ih⟩
    rintro _ ⟨⟩
    refine ⟨isWord_word number.2, ?_⟩
    cases numbers with
    | nil => exact hindentation
    | cons other numbers => exact Nat.le_refl 2

theorem allReadable_linesOf (sections : List Section) : Line.AllReadable (linesOf sections) := by
  induction sections with
  | nil => trivial
  | cons sect sections ih =>
    refine ⟨⟨isWord_title sect, Nat.le_trans (length_title_le sect) (by decide), nofun⟩, ?_⟩
    exact allReadable_numberLines ((indentation_linesOf sections).trans_le (Nat.zero_le 2)) ih

/-! ## What is said -/

section Saying

variable {document : Document} {style : Yaml.ScalarStyle}

theorem isName_scalar (document : Document) (name : String) (style : Yaml.ScalarStyle) (mark : Mark) :
    IsName document name (.scalar name.toList style {} mark) :=
  ⟨name.toList, style, {}, mark, rfl, String.ofList_toList⟩

theorem isNumber_scalar (document : Document) (n : UInt64) (mark : Mark) :
    IsNumber document n (.scalar (Settings.word n) .plain {} mark) :=
  ⟨Settings.word n, {}, mark, rfl, naturalOfPlain?_decimalDigits n.toNat⟩

theorem givesNumbers_of_describes {numbers : List (SettingName × UInt64)} {pairs : List (Node × Node)}
    (document : Document) (title : String)
    (h : List.Forall₂ (Entry.Describes style) (numbers.map numberEntry) pairs) :
    GivesNumbers document title pairs numbers := by
  induction numbers generalizing pairs with
  | nil =>
    cases h
    exact .nil
  | cons number numbers ih =>
    obtain _ | ⟨⟨⟨mark, hkey⟩, mark', hvalue⟩, hrest⟩ := h
    rename_i pair pairs
    obtain ⟨key, value⟩ := pair
    obtain rfl : key = _ := hkey
    obtain rfl : value = _ := hvalue
    exact .number (isName_scalar document number.1.fieldName style mark)
      (isNumber_scalar document number.2 mark') (ih hrest)

/-- What an entry for a section has to be is a table with the numbers of the section. -/
def SaysNumbers (entry : Section → Entry) : Prop :=
  ∀ (document : Document) (sect : Section) (node : Node), (entry sect).Means node →
    ∃ fields, IsTable document fields node ∧ GivesNumbers document sect.title fields sect.numbers

theorem exists_isTable {numbers : List (SettingName × UInt64)} {node : Node} (document : Document)
    (title : String) (h : Entry.IsMapping style (numbers.map numberEntry) node) :
    ∃ fields, IsTable document fields node ∧ GivesNumbers document title fields numbers := by
  obtain ⟨pairs, mark, rfl, hpairs⟩ := h
  exact ⟨pairs, ⟨{}, mark, .inl rfl⟩, givesNumbers_of_describes document title hpairs⟩

theorem saysNumbers_blockEntry : SaysNumbers blockEntry := by
  rintro document sect node (hmapping | ⟨hnumbers, mark, rfl⟩)
  · exact exists_isTable document sect.title hmapping
  · exact ⟨[], ⟨{}, mark, .inr ⟨rfl, rfl⟩⟩, hnumbers ▸ .nil⟩

theorem saysNumbers_sectionPart : SaysNumbers fun sect => (sectionPart sect).toEntry :=
  fun document sect _ hmapping => exists_isTable document sect.title hmapping

theorem givesSections_of_describes {entry : Section → Entry} (htells : SaysNumbers entry)
    (hkey : ∀ sect, (entry sect).key = sect.title.toList) {sections : List Section} {pairs : List (Node × Node)}
    (document : Document) (h : List.Forall₂ (Entry.Describes style) (sections.map entry) pairs) :
    GivesSections document pairs sections := by
  induction sections generalizing pairs with
  | nil =>
    cases h
    exact .nil
  | cons sect sections ih =>
    obtain _ | ⟨⟨⟨mark, htitle⟩, hvalue⟩, hrest⟩ := h
    rename_i pair pairs
    obtain ⟨key, value⟩ := pair
    obtain rfl : key = _ := htitle
    obtain ⟨fields, htable, hnumbers⟩ := htells document sect value hvalue
    rw [hkey]
    exact .titled (isName_scalar document sect.title style mark) htable hnumbers (ih hrest)

/-- A document whose root is the mapping with the sections of an outline. -/
theorem says_of_isMapping {entry : Section → Entry} (htells : SaysNumbers entry)
    (hkey : ∀ sect, (entry sect).key = sect.title.toList) {outline : Outline} {root : Node}
    (h : Entry.IsMapping style (outline.sections.map entry) root) (anchored : List Node) :
    Says ⟨some root, anchored⟩ outline := by
  obtain ⟨pairs, mark, rfl, hpairs⟩ := h
  exact ⟨pairs, ⟨{}, mark, .inl rfl⟩, givesSections_of_describes htells hkey _ hpairs⟩

end Saying

/-! ## Reading back -/

/-- **An outline as indented lines is read as a document that says what it tells.** -/
theorem exists_ofText?_block (outline : Outline) :
    ∃ document, Document.ofText? .strict (Line.textOf (linesOf outline.sections)) = some document ∧
      Says document outline := by
  obtain ⟨tokens, htokens, hwords⟩ := Token.ofText?_lines (allReadable_linesOf outline.sections)
    (indentation_linesOf outline.sections)
  rw [Document.ofText?, htokens, Option.bind_eq_bind, Option.bind_some]
  by_cases hsections : outline.sections = []
  · rw [hsections] at hwords
    exact ⟨_, Document.ofTokens?_nothing hwords, hsections⟩
  · obtain ⟨root, anchored, hdocument, hroot⟩ := Document.ofTokens?_of_builds (by decide)
      (builds_blockMapping (List.forall_mem_map.mpr fun sect _ => buildsValue_blockEntry sect))
      (hwords.trans (tokensOf_block hsections))
    exact ⟨_, hdocument, says_of_isMapping saysNumbers_blockEntry (fun _ => rfl) hroot anchored⟩

/-- **An outline between braces is read as a document that says what it tells.** -/
theorem exists_ofText?_braced (outline : Outline) :
    ∃ document, Document.ofText? .strict (Part.mappingText (outline.sections.map sectionPart)) = some document ∧
      Says document outline := by
  obtain ⟨tokens, htokens, hwords⟩ := Token.ofText?_mapping
    (List.forall_mem_map.mpr fun sect (_ : sect ∈ outline.sections) => readable_sectionPart sect)
  rw [Document.ofText?, htokens, Option.bind_eq_bind, Option.bind_some]
  rw [List.map_map] at hwords
  obtain ⟨root, anchored, hdocument, hroot⟩ := Document.ofTokens?_of_builds (by decide)
    (builds_flowMapping (List.forall_mem_map.mpr fun sect _ => buildsValue_sectionPart sect)) hwords
  exact ⟨_, hdocument, says_of_isMapping saysNumbers_sectionPart (fun _ => rfl) hroot anchored⟩

/-- An outline between braces. -/
def braced (outline : Outline) : String := .ofList (Part.mappingText (outline.sections.map sectionPart))

theorem ofYaml_eq {text : String} {document : Document} {outline : Outline}
    (htext : Document.ofText? .strict text.toList = some document) (h : Says document outline) :
    Settings.ofYaml text = .ok outline.settings := by
  rw [Settings.ofYaml, htext]
  exact Settings.ofDocument_eq h

theorem ofYaml_block (outline : Outline) : Settings.ofYaml outline.block = .ok outline.settings := by
  obtain ⟨document, htext, htells⟩ := exists_ofText?_block outline
  exact ofYaml_eq (by rw [block, String.toList_ofList]; exact htext) htells

theorem ofYaml_braced (outline : Outline) : Settings.ofYaml outline.braced = .ok outline.settings := by
  obtain ⟨document, htext, htells⟩ := exists_ofText?_braced outline
  exact ofYaml_eq (by rw [braced, String.toList_ofList]; exact htext) htells

/-! ## All settings -/

/-- The section of limiters. -/
def limiterSection (limiter : LimiterSettings) : Section where
  title := "limiter"
  numbers := [(.maxEvents, limiter.maxEvents), (.intervalMillis, limiter.intervalMillis),
    (.segments, limiter.segments)]
  known := by simp
  belong := by simp [SettingName.sectionName]
  once := by simp

/-- The section of the registry. -/
def storeSection (store : StoreSettings) : Section where
  title := "store"
  numbers := [(.cleanupMillis, store.cleanupMillis)]
  known := by simp
  belong := by simp [SettingName.sectionName]
  once := by simp

/-- The outline that tells all settings. -/
def ofSettings (settings : Settings) : Outline where
  sections := [limiterSection settings.limiter, storeSection settings.store]
  once := by simp [limiterSection, storeSection]

theorem settings_ofSettings (settings : Settings) : (ofSettings settings).settings = settings :=
  Settings.eq_of_number_eq fun name => by cases name <;> rfl

theorem linesOf_ofSettings (settings : Settings) :
    linesOf (ofSettings settings).sections = [
      ⟨0, "limiter".toList, none⟩,
      ⟨2, "max_events".toList, some (Settings.word settings.limiter.maxEvents)⟩,
      ⟨2, "interval_ms".toList, some (Settings.word settings.limiter.intervalMillis)⟩,
      ⟨2, "segments".toList, some (Settings.word settings.limiter.segments)⟩,
      ⟨0, "store".toList, none⟩,
      ⟨2, "cleanup_interval_ms".toList, some (Settings.word settings.store.cleanupMillis)⟩] := rfl

theorem block_ofSettings (settings : Settings) : (ofSettings settings).block = settings.block := by
  rw [block, linesOf_ofSettings]
  refine congrArg String.ofList ?_
  simp [Line.textOf, Line.body, List.replicate]

theorem entryText_numberPart (name : SettingName) (n : UInt64) :
    (numberPart (name, n)).entryText = '"' :: (name.fieldName.toList ++ '"' :: ':' :: Settings.word n) := rfl

theorem entryText_sectionPart (sect : Section) :
    (sectionPart sect).entryText =
      '"' :: (sect.title.toList ++ '"' :: ':' :: Part.mappingText (sect.numbers.map numberPart)) := rfl

theorem braced_ofSettings (settings : Settings) : (ofSettings settings).braced = settings.braced := by
  have hsections : (ofSettings settings).sections.map sectionPart =
      [sectionPart (limiterSection settings.limiter), sectionPart (storeSection settings.store)] := rfl
  rw [braced, hsections]
  refine congrArg String.ofList ?_
  simp only [Part.mappingText, Part.insideText, Part.moreText, entryText_sectionPart, entryText_numberPart,
    limiterSection, storeSection, SettingName.fieldName, List.flatMap_cons, List.flatMap_nil, List.map_cons,
    List.map_nil]
  simp

end Outline

namespace Settings

open Outline

/-- **Settings are read back from their written forms.** So are the settings of every outline, and whatever
the text is in which a document says what an outline tells, its settings are read from it: the numbers that it
tells, and the defaults of all others. -/
theorem ofYaml_written :
    (∀ settings : Settings, ofYaml settings.block = .ok settings ∧ ofYaml settings.braced = .ok settings) ∧
    (∀ outline : Outline,
      ofYaml outline.block = .ok outline.settings ∧ ofYaml outline.braced = .ok outline.settings) ∧
    (∀ (text : String) (document : Document) (outline : Outline),
      Document.ofText? .strict text.toList = some document → Says document outline →
        ofYaml text = .ok outline.settings) ∧
    ∀ (outline : Outline) (name : SettingName),
      (∀ n, (name, n) ∈ numbersOf outline.sections → outline.settings.number name = n) ∧
      ((∀ n, (name, n) ∉ numbersOf outline.sections) →
        (outline.settings.number name).toNat = name.defaultNumber) := by
  refine ⟨fun settings => ?_, fun outline => ⟨ofYaml_block outline, ofYaml_braced outline⟩,
    fun text document outline => ofYaml_eq,
    fun outline name => ⟨fun n => number_settings_of_mem, number_settings_of_forall_not_mem⟩⟩
  have hblock := ofYaml_block (ofSettings settings)
  have hbraced := ofYaml_braced (ofSettings settings)
  rw [block_ofSettings, settings_ofSettings] at hblock
  rw [braced_ofSettings, settings_ofSettings] at hbraced
  exact ⟨hblock, hbraced⟩

/-- A document with one number: what it does not give has its default. -/
theorem ofYaml_written_pause_alone :
    ∃ (document : Document) (outline : Outline),
      Document.ofText? .strict "store:\n  cleanup_interval_ms: 5\n".toList = some document ∧
      Says document outline ∧
      ofYaml "store:\n  cleanup_interval_ms: 5\n" = .ok outline.settings ∧
      outline.settings = ⟨{}, ⟨5⟩⟩ := by
  let outline : Outline := ⟨[storeSection ⟨5⟩], by simp⟩
  have htext : outline.block = "store:\n  cleanup_interval_ms: 5\n" := by
    have hword : word 5 = ['5'] := by decide
    have hlines : linesOf outline.sections =
        [⟨0, "store".toList, none⟩, ⟨2, "cleanup_interval_ms".toList, some (word 5)⟩] := rfl
    rw [← String.toList_inj, Outline.block, String.toList_ofList, hlines, hword]
    simp [Line.textOf, Line.body, List.replicate]
  obtain ⟨document, hdocument, htells⟩ := exists_ofText?_block outline
  have hread : Document.ofText? .strict outline.block.toList = some document := by
    rw [Outline.block, String.toList_ofList]
    exact hdocument
  rw [htext] at hread
  exact ⟨document, outline, hread, htells, ofYaml_written.2.2.1 _ document outline hread htells,
    eq_of_number_eq fun name => by cases name <;> rfl⟩

end Settings

end Throttle
