import Mathlib
import Throttle.Proofs.Number.Digits
import Throttle.Proofs.Settings.Names
import Throttle.Settings.Document

/-!
# Documents that give some settings

An outline tells which sections a document has and which numbers stand in each of them. A document says what
an outline tells if it has its sections and numbers in this order. It may have other fields besides: what has
the name of no setting is gone over, whatever it is. The settings in such a document are those of the outline,
and what the outline does not tell has its default.

The entries of a section are read one after the other, and each of them sets one number that has not been set
and leaves all others as they are. Both sections are read in this way, so that the induction on the entries is
made once, for a step that `SetsNumbers`.

## Main definitions

* `Outline` — sections with numbers, none of them twice.
* `Outline.settings` — the settings that an outline tells.
* `Says` — what a document says.

## Main statements

* `naturalOfPlain?_decimalDigits` — a number in base ten is a plain scalar that means this number.
* `Settings.ofDocument_eq` — the settings in a document.
-/

namespace Throttle

open Yaml (Document Node)

/-! ## Numbers -/

section Plain

variable {c : Char} {rest : List Char}

theorem splitBase_of_ne_zero (h : c ≠ '0') : splitBase (c :: rest) = (10, c :: rest) := by
  rw [splitBase] <;> rintro _ heq <;> exact h (List.cons.inj heq).1

theorem hasLeadingZero_of_ne_zero (h : c ≠ '0') (hdigit : Number.isDigit c) :
    hasLeadingZero (c :: rest) = false := by
  have hsign : Number.splitSign (c :: rest) = (false, c :: rest) := by
    rw [Number.splitSign] <;> rintro _ heq <;> rw [(List.cons.inj heq).1] at hdigit <;> cases hdigit
  rw [hasLeadingZero, hsign]
  split
  · rename_i heq
    exact absurd (List.cons.inj heq).1 h
  · rfl

end Plain

/-- **What is written in base ten is read as a number.** -/
theorem naturalOfPlain?_decimalDigits (n : Nat) : naturalOfPlain? (Number.decimalDigits n) = some n := by
  obtain ⟨c, rest, htext⟩ := List.exists_cons_of_ne_nil (Number.decimalDigits_ne_nil n)
  have hread := Number.natOfDigits?_decimalDigits n
  have hdigit : Number.isDigit c := Number.isDigit_of_mem_decimalDigits (htext ▸ List.mem_cons_self)
  rw [htext] at hread ⊢
  by_cases hzero : c = '0'
  · subst hzero
    obtain rfl := Number.eq_nil_of_decimalDigits htext
    exact hread
  · rw [naturalOfPlain?, splitBase_of_ne_zero hzero, hasLeadingZero_of_ne_zero hzero hdigit]
    · exact hread
    · rintro _ heq
      rw [(List.cons.inj heq).1] at hdigit
      cases hdigit

/-! ## Outlines -/

/-- The number that is given for a setting. -/
def GivenLimiter.number? (given : GivenLimiter) : SettingName → Option UInt64
  | .maxEvents => given.maxEvents
  | .intervalMillis => given.intervalMillis
  | .segments => given.segments
  | .cleanupMillis => none

/-- One more number is given. -/
def GivenLimiter.put (given : GivenLimiter) (n : UInt64) : SettingName → GivenLimiter
  | .maxEvents => { given with maxEvents := some n }
  | .intervalMillis => { given with intervalMillis := some n }
  | .segments => { given with segments := some n }
  | .cleanupMillis => given

/-- The number that is given for a setting. -/
def GivenStore.number? (given : GivenStore) : SettingName → Option UInt64
  | .cleanupMillis => given.cleanupMillis
  | .maxEvents | .intervalMillis | .segments => none

/-- One more number is given. -/
def GivenStore.put (given : GivenStore) (n : UInt64) : SettingName → GivenStore
  | .cleanupMillis => { given with cleanupMillis := some n }
  | .maxEvents | .intervalMillis | .segments => given

/-- A section with some numbers, each of them once. -/
structure Outline.Section where
  title : String
  numbers : List (SettingName × UInt64)
  known : title ∈ ["limiter", "store"]
  belong : ∀ entry ∈ numbers, entry.1.sectionName = title
  once : (numbers.map Prod.fst).Nodup

/-- Some sections, each of them once. -/
structure Outline where
  sections : List Outline.Section
  once : (sections.map Outline.Section.title).Nodup

namespace Outline

theorem Section.title_eq (sect : Section) : sect.title = "limiter" ∨ sect.title = "store" := by
  simpa using sect.known

/-- The numbers in all sections. -/
def numbersOf (sections : List Section) : List (SettingName × UInt64) := sections.flatMap Section.numbers

theorem numbersOf_cons (sect : Section) (sections : List Section) :
    numbersOf (sect :: sections) = sect.numbers ++ numbersOf sections := List.flatMap_cons

/-- The settings that an outline tells. -/
def settings (outline : Outline) : Settings := .ofGiven fun name => (numbersOf outline.sections).lookup name

/-- No setting is told twice. -/
theorem nodup_names (outline : Outline) : ((numbersOf outline.sections).map Prod.fst).Nodup := by
  rw [numbersOf, List.map_flatMap, List.nodup_flatMap]
  refine ⟨fun sect _ => sect.once, (List.pairwise_map.mp outline.once).imp fun {sect other} hne => ?_⟩
  rw [Function.onFun, List.disjoint_left]
  intro name hname hother
  obtain ⟨entry, hentry, rfl⟩ := List.mem_map.mp hname
  obtain ⟨entry', hentry', heq⟩ := List.mem_map.mp hother
  exact hne ((sect.belong entry hentry).symm.trans (heq ▸ other.belong entry' hentry'))

theorem number_settings_of_mem {outline : Outline} {name : SettingName} {n : UInt64}
    (h : (name, n) ∈ numbersOf outline.sections) : outline.settings.number name = n := by
  have hlookup : (numbersOf outline.sections).lookup name = some n :=
    lookup_eq_some_of_mem outline.nodup_names h
  rw [settings, Settings.ofGiven, Settings.number_ofNumbers, hlookup]
  rfl

theorem number_settings_of_forall_not_mem {outline : Outline} {name : SettingName}
    (h : ∀ n, (name, n) ∉ numbersOf outline.sections) :
    (outline.settings.number name).toNat = name.defaultNumber := by
  have hlookup : (numbersOf outline.sections).lookup name = none :=
    lookup_eq_none_of_ne fun entry hentry heq => h entry.2 (heq ▸ hentry)
  rw [settings, Settings.ofGiven, Settings.number_ofNumbers, hlookup]
  exact Settings.toNat_number_default name

end Outline

/-- Whether a section has been read. -/
def GivenSections.has (given : GivenSections) (title : String) : Prop :=
  (title = "limiter" ∧ given.limiter.isSome) ∨ (title = "store" ∧ given.store.isSome)

/-! ## What documents say -/

section Says

variable (document : Document)

/-- A node is a name. -/
def IsName (name : String) (node : Node) : Prop :=
  ∃ text style properties mark, document.resolve? node = some (.scalar text style properties mark) ∧
    String.ofList text = name

/-- A node is a number. -/
def IsNumber (n : UInt64) (node : Node) : Prop :=
  ∃ text properties mark, document.resolve? node = some (.scalar text .plain properties mark) ∧
    naturalOfPlain? text = some n.toNat

/-- A node is a mapping with some entries. An empty one may be left out. -/
def IsTable (entries : List (Node × Node)) (node : Node) : Prop :=
  ∃ properties mark, document.resolve? node = some (.mapping entries properties mark) ∨
    (entries = [] ∧ document.resolve? node = some (.scalar [] .plain properties mark))

/-- The entries of a section give some numbers, and nothing else that has the name of a setting. -/
inductive GivesNumbers (title : String) : List (Node × Node) → List (SettingName × UInt64) → Prop where
  | nil : GivesNumbers title [] []
  | number {name : SettingName} {n : UInt64} {key value : Node} {entries : List (Node × Node)}
      {numbers : List (SettingName × UInt64)} (hkey : IsName document name.fieldName key)
      (hvalue : IsNumber document n value) (hentries : GivesNumbers title entries numbers) :
      GivesNumbers title ((key, value) :: entries) ((name, n) :: numbers)
  | other {text : String} {key value : Node} {entries : List (Node × Node)}
      {numbers : List (SettingName × UInt64)} (hkey : IsName document text key)
      (htext : ∀ name : SettingName, name.sectionName = title → name.fieldName ≠ text)
      (hentries : GivesNumbers title entries numbers) : GivesNumbers title ((key, value) :: entries) numbers

/-- The entries of a document give some sections, and nothing else that has the name of a section. -/
inductive GivesSections : List (Node × Node) → List Outline.Section → Prop where
  | nil : GivesSections [] []
  | titled {sect : Outline.Section} {key value : Node} {fields entries : List (Node × Node)}
      {sections : List Outline.Section} (hkey : IsName document sect.title key)
      (hvalue : IsTable document fields value) (hfields : GivesNumbers document sect.title fields sect.numbers)
      (hentries : GivesSections entries sections) : GivesSections ((key, value) :: entries) (sect :: sections)
  | other {text : String} {key value : Node} {entries : List (Node × Node)} {sections : List Outline.Section}
      (hkey : IsName document text key) (htext : text ∉ ["limiter", "store"])
      (hentries : GivesSections entries sections) : GivesSections ((key, value) :: entries) sections

/-- A document says what an outline tells. -/
def Says (outline : Outline) : Prop :=
  match document.root with
  | none => outline.sections = []
  | some root => ∃ entries, IsTable document entries root ∧ GivesSections document entries outline.sections

end Says

/-! ## Reading entries -/

section Reading

variable {document : Document} {name text : String} {n : UInt64} {node : Node} {path : List String}
  {entries : List (Node × Node)}

theorem fieldName_eq (h : IsName document name node) (path : List String) :
    fieldName document path node = .ok name := by
  obtain ⟨text, style, properties, mark, hnode, rfl⟩ := h
  rw [fieldName, hnode]

theorem readCount_eq (h : IsNumber document n node) (wanted : Wanted) (path : List String) :
    readCount document wanted path node = .ok n := by
  obtain ⟨text, properties, mark, hnode, htext⟩ := h
  have hsmall : n.toNat < Number.twoPow 64 := n.toNat_lt
  rw [readCount, hnode]
  simp [htext, hsmall]

theorem exists_readEntries (h : IsTable document entries node) (wanted : Wanted) (path : List String) :
    ∃ mark, readEntries document wanted path node = .ok (entries, mark) := by
  obtain ⟨properties, mark, hnode | ⟨rfl, hnode⟩⟩ := h <;> refine ⟨mark, ?_⟩ <;> rw [readEntries, hnode]

/-- A step over an entry sets the number that the entry gives, if it has not been set. -/
structure SetsNumbers {α : Type} (document : Document) (title : String)
    (step : α → Node × Node → Except DocumentFault α) (number? : α → SettingName → Option UInt64) : Prop where
  number : ∀ {given : α} {name : SettingName} {n : UInt64} {key value : Node}, name.sectionName = title →
    IsName document name.fieldName key → IsNumber document n value → number? given name = none →
    ∃ next, step given (key, value) = .ok next ∧ number? next = Function.update (number? given) name (some n)
  other : ∀ {given : α} {text : String} {key value : Node}, IsName document text key →
    (∀ name : SettingName, name.sectionName = title → name.fieldName ≠ text) →
    step given (key, value) = .ok given

/-- **All entries of a section.** -/
theorem SetsNumbers.foldlM_eq {α : Type} {title : String} {step : α → Node × Node → Except DocumentFault α}
    {number? : α → SettingName → Option UInt64} (hstep : SetsNumbers document title step number?)
    {numbers : List (SettingName × UInt64)} (h : GivesNumbers document title entries numbers)
    (hbelong : ∀ entry ∈ numbers, entry.1.sectionName = title) (honce : (numbers.map Prod.fst).Nodup)
    (given : α) (hnew : ∀ entry ∈ numbers, number? given entry.1 = none) :
    ∃ last, entries.foldlM step given = .ok last ∧
      ∀ name, number? last name = (numbers.lookup name).or (number? given name) := by
  induction h generalizing given with
  | nil => exact ⟨given, rfl, fun name => rfl⟩
  | @number name n key value entries numbers hkey hvalue _ ih =>
    obtain ⟨hname, hbelong⟩ := List.forall_mem_cons.mp hbelong
    obtain ⟨hfresh, honce⟩ := List.nodup_cons.mp honce
    obtain ⟨hunset, hnew⟩ := List.forall_mem_cons.mp hnew
    obtain ⟨next, hnext, hset⟩ := hstep.number hname hkey hvalue hunset
    have hothers : ∀ entry ∈ numbers, entry.1 ≠ name := fun entry hentry heq =>
      hfresh (List.mem_map.mpr ⟨entry, hentry, heq⟩)
    have hstill : ∀ entry ∈ numbers, number? next entry.1 = none := by
      intro entry hentry
      rw [hset, Function.update_of_ne (hothers entry hentry), hnew entry hentry]
    obtain ⟨last, hlast, hnumbers⟩ := ih hbelong honce next hstill
    refine ⟨last, ?_, fun other => ?_⟩
    · rw [List.foldlM_cons, hnext]
      exact hlast
    · rw [hnumbers, hset, lookup_cons_eq_ite]
      by_cases hother : other = name
      · subst hother
        rw [lookup_eq_none_of_ne hothers, Function.update_self, if_pos rfl]
        rfl
      · rw [Function.update_of_ne hother, if_neg hother]
  | other hkey htext _ ih =>
    obtain ⟨last, hlast, hnumbers⟩ := ih hbelong honce given hnew
    refine ⟨last, ?_, hnumbers⟩
    rw [List.foldlM_cons, hstep.other hkey htext]
    exact hlast

/-! ## Sections -/

theorem setsNumbers_limiter (document : Document) (path : List String) (mark : Mark) :
    SetsNumbers document "limiter" (GivenLimiter.addEntry document path mark) GivenLimiter.number? where
  number := by
    intro given name n key value hname hkey hvalue hunset
    refine ⟨given.put n name, ?_, ?_⟩
    · rw [GivenLimiter.addEntry, fieldName_eq hkey]
      cases name with
      | cleanupMillis => exact absurd hname (by decide)
      | maxEvents | intervalMillis | segments =>
        simp only [GivenLimiter.number?] at hunset
        simp only [hunset, setOnce, readCount_eq hvalue]
        rfl
    · funext other
      cases name with
      | cleanupMillis => exact absurd hname (by decide)
      | maxEvents | intervalMillis | segments => cases other <;> rfl
  other := by
    intro given text key value hkey htext
    rw [GivenLimiter.addEntry, fieldName_eq hkey]
    have hne (name : SettingName) (hname : name.sectionName = "limiter") : ¬text = name.fieldName :=
      (htext name hname).symm
    exact (if_neg (hne .maxEvents rfl)).trans
      ((if_neg (hne .intervalMillis rfl)).trans (if_neg (hne .segments rfl)))

theorem setsNumbers_store (document : Document) (path : List String) (mark : Mark) :
    SetsNumbers document "store" (GivenStore.addEntry document path mark) GivenStore.number? where
  number := by
    intro given name n key value hname hkey hvalue hunset
    refine ⟨given.put n name, ?_, ?_⟩
    · rw [GivenStore.addEntry, fieldName_eq hkey]
      cases name with
      | maxEvents | intervalMillis | segments => exact absurd hname (by decide)
      | cleanupMillis =>
        simp only [GivenStore.number?] at hunset
        simp only [hunset, setOnce, readCount_eq hvalue]
        rfl
    · funext other
      cases name with
      | maxEvents | intervalMillis | segments => exact absurd hname (by decide)
      | cleanupMillis => cases other <;> rfl
  other := by
    intro given text key value hkey htext
    rw [GivenStore.addEntry, fieldName_eq hkey]
    exact if_neg (htext .cleanupMillis rfl).symm

section Sections

variable {numbers : List (SettingName × UInt64)}

/-- The settings of limiters in a section. -/
theorem readLimiter_eq (htable : IsTable document entries node)
    (h : GivesNumbers document "limiter" entries numbers)
    (hbelong : ∀ entry ∈ numbers, entry.1.sectionName = "limiter") (honce : (numbers.map Prod.fst).Nodup)
    (path : List String) :
    readLimiter document path node = .ok (Settings.ofGiven fun name => numbers.lookup name).limiter := by
  obtain ⟨mark, hread⟩ := exists_readEntries htable .limiterSection path
  obtain ⟨last, hlast, hnumbers⟩ := (setsNumbers_limiter document path mark).foldlM_eq h hbelong honce {}
    (fun entry _ => by cases entry.1 <;> rfl)
  have hlimit : last.maxEvents = numbers.lookup .maxEvents := (hnumbers .maxEvents).trans (Option.or_none ..)
  have hinterval : last.intervalMillis = numbers.lookup .intervalMillis :=
    (hnumbers .intervalMillis).trans (Option.or_none ..)
  have hsegments : last.segments = numbers.lookup .segments := (hnumbers .segments).trans (Option.or_none ..)
  have hcomplete : last.complete = (Settings.ofGiven fun name => numbers.lookup name).limiter := by
    rw [GivenLimiter.complete, hlimit, hinterval, hsegments]
    rfl
  rw [readLimiter, hread, ← hcomplete]
  exact congrArg (· >>= fun given : GivenLimiter => pure given.complete) hlast

/-- The settings of the registry in a section. -/
theorem readStore_eq (htable : IsTable document entries node)
    (h : GivesNumbers document "store" entries numbers)
    (hbelong : ∀ entry ∈ numbers, entry.1.sectionName = "store") (honce : (numbers.map Prod.fst).Nodup)
    (path : List String) :
    readStore document path node = .ok (Settings.ofGiven fun name => numbers.lookup name).store := by
  obtain ⟨mark, hread⟩ := exists_readEntries htable .storeSection path
  obtain ⟨last, hlast, hnumbers⟩ := (setsNumbers_store document path mark).foldlM_eq h hbelong honce {}
    (fun entry _ => by cases entry.1 <;> rfl)
  have hpause : last.cleanupMillis = numbers.lookup .cleanupMillis :=
    (hnumbers .cleanupMillis).trans (Option.or_none ..)
  have hcomplete : last.complete = (Settings.ofGiven fun name => numbers.lookup name).store := by
    rw [GivenStore.complete, hpause]
    rfl
  rw [readStore, hread, ← hcomplete]
  exact congrArg (· >>= fun given : GivenStore => pure given.complete) hlast

/-- In a section that has not been read, everything has its default. -/
theorem number_complete_of_not_has {given : GivenSections} {name : SettingName}
    (h : ¬given.has name.sectionName) :
    given.complete.number name = ({} : Settings).number name := by
  obtain ⟨limiter, store⟩ := given
  cases name with
  | maxEvents | intervalMillis | segments =>
    cases limiter with
    | none => rfl
    | some limiter => exact absurd (.inl ⟨rfl, rfl⟩) h
  | cleanupMillis =>
    cases store with
    | none => rfl
    | some store => exact absurd (.inr ⟨rfl, rfl⟩) h

/-- One more section that has not been read. -/
theorem exists_addSection {sect : Outline.Section} {key value : Node} (mark : Mark) {given : GivenSections}
    (hkey : IsName document sect.title key) (hvalue : IsTable document entries value)
    (hfields : GivesNumbers document sect.title entries sect.numbers) (hnew : ¬given.has sect.title) :
    ∃ next, GivenSections.addEntry document mark given (key, value) = .ok next ∧
      (∀ title, next.has title ↔ title = sect.title ∨ given.has title) ∧
      ∀ name : SettingName, next.complete.number name =
        if name.sectionName = sect.title then
          (Settings.ofGiven fun name => sect.numbers.lookup name).number name
        else given.complete.number name := by
  obtain ⟨title, numbers, known, belong, once⟩ := sect
  obtain ⟨limiter, store⟩ := given
  obtain rfl | rfl : title = "limiter" ∨ title = "store" := by simpa using known
  · obtain rfl : limiter = none := by
      cases limiter with
      | none => rfl
      | some limiter => exact absurd (.inl ⟨rfl, rfl⟩) hnew
    refine ⟨⟨some (Settings.ofGiven fun name => numbers.lookup name).limiter, store⟩, ?_, ?_, ?_⟩
    · rw [GivenSections.addEntry, fieldName_eq hkey]
      change (some <$> readLimiter document _ value) >>= _ = _
      rw [readLimiter_eq hvalue hfields belong once]
      rfl
    · intro title
      simp [GivenSections.has]
    · intro name
      cases name <;> rfl
  · obtain rfl : store = none := by
      cases store with
      | none => rfl
      | some store => exact absurd (.inr ⟨rfl, rfl⟩) hnew
    refine ⟨⟨limiter, some (Settings.ofGiven fun name => numbers.lookup name).store⟩, ?_, ?_, ?_⟩
    · rw [GivenSections.addEntry, fieldName_eq hkey]
      change (some <$> readStore document _ value) >>= _ = _
      rw [readStore_eq hvalue hfields belong once]
      rfl
    · intro title
      simp [GivenSections.has, or_comm]
    · intro name
      cases name <;> rfl

/-- What has the name of no section is gone over. -/
theorem addSection_other {text : String} {key value : Node} {mark : Mark} {given : GivenSections}
    (hkey : IsName document text key) (htext : text ∉ ["limiter", "store"]) :
    GivenSections.addEntry document mark given (key, value) = .ok given := by
  simp only [List.mem_cons, List.not_mem_nil, or_false, not_or] at htext
  rw [GivenSections.addEntry, fieldName_eq hkey]
  exact (if_neg htext.1).trans (if_neg htext.2)

/-- **All sections.** -/
theorem foldlM_addSection {sections : List Outline.Section} (h : GivesSections document entries sections)
    (honce : (sections.map Outline.Section.title).Nodup) (mark : Mark) (given : GivenSections)
    (hnew : ∀ sect ∈ sections, ¬given.has sect.title) :
    ∃ last, entries.foldlM (GivenSections.addEntry document mark) given = .ok last ∧
      ∀ name, last.complete.number name =
        ((Outline.numbersOf sections).lookup name).getD (given.complete.number name) := by
  induction h generalizing given with
  | nil => exact ⟨given, rfl, fun name => rfl⟩
  | @titled sect key value fields entries sections hkey hvalue hfields _ ih =>
    obtain ⟨hfresh, honce⟩ := List.nodup_cons.mp honce
    obtain ⟨hunread, hnew⟩ := List.forall_mem_cons.mp hnew
    obtain ⟨next, hnext, hhas, hnumber⟩ := exists_addSection mark hkey hvalue hfields hunread
    have hothers : ∀ other ∈ sections, other.title ≠ sect.title := fun other hother heq =>
      hfresh (List.mem_map.mpr ⟨other, hother, heq⟩)
    obtain ⟨last, hlast, hall⟩ := ih honce next fun other hother hread =>
      ((hhas other.title).mp hread).elim (hothers other hother) (hnew other hother)
    refine ⟨last, ?_, fun name => ?_⟩
    · rw [List.foldlM_cons, hnext]
      exact hlast
    · rw [hall, hnumber, Outline.numbersOf_cons, List.lookup_append]
      by_cases hname : name.sectionName = sect.title
      · have hnone : (Outline.numbersOf sections).lookup name = none := by
          refine lookup_eq_none_of_ne fun entry hentry heq => ?_
          obtain ⟨other, hother, hmem⟩ := List.mem_flatMap.mp hentry
          exact hothers other hother ((other.belong entry hmem).symm.trans (heq ▸ hname))
        rw [hnone, if_pos hname, Option.or_none, number_complete_of_not_has (hname ▸ hunread)]
        exact Settings.number_ofNumbers _ name
      · have hnone : sect.numbers.lookup name = none := lookup_eq_none_of_ne fun entry hentry heq =>
          hname (heq ▸ sect.belong entry hentry)
        rw [hnone, if_neg hname]
        rfl
  | other hkey htext _ ih =>
    obtain ⟨last, hlast, hall⟩ := ih honce given hnew
    refine ⟨last, ?_, hall⟩
    rw [List.foldlM_cons, addSection_other hkey htext]
    exact hlast

end Sections

end Reading

/-- **The settings in a document that says what an outline tells.** -/
theorem Settings.ofDocument_eq {document : Document} {outline : Outline} (h : Says document outline) :
    ofDocument document = .ok outline.settings := by
  obtain ⟨root, anchored⟩ := document
  obtain ⟨sections, once⟩ := outline
  cases root with
  | none =>
    obtain rfl : sections = [] := h
    exact congrArg Except.ok (eq_of_number_eq fun name => by cases name <;> rfl)
  | some root =>
    obtain ⟨entries, htable, hsections⟩ := h
    obtain ⟨mark, hread⟩ := exists_readEntries htable .sections []
    obtain ⟨last, hlast, hall⟩ := foldlM_addSection hsections once mark {}
      fun sect _ => by simp [GivenSections.has]
    have hcomplete : last.complete = Outline.settings ⟨sections, once⟩ := eq_of_number_eq fun name => by
      rw [hall, Outline.settings, ofGiven, number_ofNumbers]
      cases name <;> rfl
    rw [ofDocument, ← hcomplete]
    change readEntries _ _ _ _ >>= _ = _
    rw [hread]
    exact congrArg (· >>= fun given : GivenSections => pure given.complete) hlast

end Throttle
