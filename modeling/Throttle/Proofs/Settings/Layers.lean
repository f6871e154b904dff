import Mathlib
import Throttle.Proofs.Number.Digits
import Throttle.Proofs.Settings.Names
import Throttle.Settings.File

/-!
# Layered settings

A setting may be given by a file and by the environment. Each setting is taken from the environment if it is
given there, else from the file if it is given there, and else it has its default: what a later source says
about one setting takes nothing away from what an earlier source says about another one of the same section.

That is so for sources that say plain things only. The entries of a source reach settings in two ways, by a
table that is a section and by a path to a field, and each of them has to give whole numbers.

## Main definitions

* `Layer.Sets` — an entry of a source gives a setting a value.
* `Layer.States` — all that a source says about settings is a number for each of some of them.

## Main statements

* `Layer.States.of_outline`, `Layer.Variables.states` — what a source of sections says, and what variables say.
* `Layer.given_overlay` — what a setting is in the overlaid tables.
* `Settings.load_layers` — the settings in a file and the environment.
-/

namespace Throttle

namespace Layer

/-! ## Tables -/

namespace Value

variable {name key : String} {value root : Value} {entries : List (String × Value)}

/-- The entries of a table. -/
def entries? : Value → Option (List (String × Value))
  | table entries _ => some entries
  | scalar _ _ | array _ _ => none

theorem eq_of_entries? (h : value.entries? = some entries) : ∃ origin, value = table entries origin := by
  cases value with
  | table _ origin =>
    cases h
    exact ⟨origin, rfl⟩
  | scalar _ _ | array _ _ => cases h

/-- The integer that a value is. -/
def integer? : Value → Option Int
  | scalar (.integer n) _ => some n
  | scalar .nothing _ | scalar (.boolean _) _ | scalar (.float _) _ | scalar (.text _) _ => none
  | array _ _ | table _ _ => none

theorem eq_of_integer? {n : Int} (h : value.integer? = some n) :
    ∃ origin, value = scalar (.integer n) origin := by
  cases value with
  | array _ _ | table _ _ => cases h
  | scalar value origin =>
    cases value with
    | integer _ =>
      cases h
      exact ⟨origin, rfl⟩
    | nothing | boolean _ | float _ | text _ => cases h

theorem lookup_replaceIn (name : String) (value : Value) (entries : List (String × Value)) (key : String) :
    (replaceIn name value entries).lookup key = if key = name then some value else entries.lookup key := by
  induction entries with
  | nil => rw [replaceIn, lookup_cons_eq_ite]
  | cons entry entries ih =>
    by_cases hentry : entry.1 = name
    · rw [replaceIn, if_pos hentry, lookup_cons_eq_ite, lookup_cons_eq_ite, hentry]
      split_ifs <;> rfl
    · rw [replaceIn, if_neg hentry, lookup_cons_eq_ite, lookup_cons_eq_ite, ih]
      by_cases h : key = name
      · rw [if_pos h, if_pos h, if_neg (h ▸ Ne.symm hentry)]
      · rw [if_neg h, if_neg h]

theorem find?_replace (root : Value) (name key : String) (value : Value) :
    (root.toTable.replace name value).find? key = if key = name then some value else root.find? key := by
  cases root with
  | table entries origin => exact lookup_replaceIn name value entries key
  | scalar _ _ => exact lookup_replaceIn name value [] key
  | array _ _ => exact lookup_replaceIn name value [] key

/-- Whether a value is a table. -/
def IsTable (value : Value) : Prop := ∃ entries origin, value = table entries origin

theorem isTable_replace (root : Value) (name : String) (value : Value) :
    (root.toTable.replace name value).IsTable := by
  cases root <;> exact ⟨_, _, rfl⟩

theorem assign_eq (root : Value) (name : String) (value : Value) :
    root.assign name value = root.toTable.replace (lowerCase name)
      (match value with
        | .table entries _ => assignAll ((root.find? (lowerCase name)).getD emptyTable) entries
        | other => other) := by
  cases value <;> rfl

theorem find?_assign_of_ne (h : key ≠ lowerCase name) :
    (root.assign name value).find? key = root.find? key := by
  rw [assign_eq, find?_replace, if_neg h]

theorem find?_assign_scalar (root : Value) (name : String) (scalar : Scalar) (origin : Option String) :
    (root.assign name (.scalar scalar origin)).find? (lowerCase name) = some (.scalar scalar origin) := by
  rw [assign_eq, find?_replace, if_pos rfl]

theorem isTable_assignAll (h : root.IsTable) (entries : List (String × Value)) :
    (assignAll root entries).IsTable := by
  induction entries generalizing root with
  | nil => exact h
  | cons entry entries ih =>
    refine ih ?_
    rw [assign_eq]
    exact isTable_replace root _ _

end Value

/-! ## What a source says -/

/-- The place that a name on the outermost level of a source means. -/
def place (name : String) : Path := (Path.ofText? name).getD ⟨name, []⟩

theorem assignNamed_eq (root : Value) (name : String) (value : Value) :
    root.assignNamed name value = (place name).assign value root := by
  rw [Value.assignNamed, place]
  cases Path.ofText? name <;> rfl

/-- An entry of a source gives a setting a value. -/
inductive Sets : String × Value → SettingName → Value → Prop
  /-- The entry is the setting's section, and has the setting among its own entries. -/
  | inSection {text part key : String} {entries : List (String × Value)} {origin : Option String}
      {name : SettingName} {value : Value} (hplace : place text = ⟨part, []⟩)
      (hsection : lowerCase part = name.sectionName) (hmem : (key, value) ∈ entries)
      (hfield : lowerCase key = name.fieldName) :
      Sets (text, .table entries origin) name value
  /-- The entry is named by the setting's path. -/
  | atPath {text part key : String} {name : SettingName} {value : Value}
      (hplace : place text = ⟨part, [.key key]⟩) (hsection : lowerCase part = name.sectionName)
      (hfield : lowerCase key = name.fieldName) :
      Sets (text, value) name value

/-- A section sets what its entries are named for. -/
theorem sets_section_iff {text part : String} {entries : List (String × Value)} {origin : Option String}
    {name : SettingName} {value : Value} (hplace : place text = ⟨part, []⟩) :
    Sets (text, .table entries origin) name value ↔
      lowerCase part = name.sectionName ∧ ∃ key, (key, value) ∈ entries ∧ lowerCase key = name.fieldName := by
  constructor
  · intro hsets
    cases hsets with
    | inSection hsame hsection hmem hfield =>
      cases hplace.symm.trans hsame
      exact ⟨hsection, _, hmem, hfield⟩
    | atPath hother => cases hplace.symm.trans hother
  · rintro ⟨hsection, key, hmem, hfield⟩
    exact .inSection hplace hsection hmem hfield

/-- An entry that is named by a path sets what the path leads to. -/
theorem sets_path_iff {text part key : String} {name : SettingName} {value held : Value}
    (hplace : place text = ⟨part, [.key key]⟩) :
    Sets (text, value) name held ↔
      lowerCase part = name.sectionName ∧ lowerCase key = name.fieldName ∧ held = value := by
  constructor
  · intro hsets
    cases hsets with
    | inSection hother => cases hplace.symm.trans hother
    | atPath hsame hsection hfield =>
      cases hplace.symm.trans hsame
      exact ⟨hsection, hfield, rfl⟩
  · rintro ⟨hsection, hfield, rfl⟩
    exact .atPath hplace hsection hfield

/-- An entry of a source leaves sections what they are, which is tables. -/
inductive Orderly : String × Value → Prop
  | elsewhere {text : String} {value : Value}
      (h : ∀ name : SettingName, name.sectionName ≠ lowerCase (place text).name) : Orderly (text, value)
  | table {text part : String} {entries : List (String × Value)} {origin : Option String}
      (hplace : place text = ⟨part, []⟩) : Orderly (text, .table entries origin)
  | path {text part key : String} {value : Value} (hplace : place text = ⟨part, [.key key]⟩) :
      Orderly (text, value)

/-- All that a source says about settings is a number for each of those that have one in `given`. -/
structure States (source : List (String × Value)) (given : SettingName → Option Nat) : Prop where
  orderly : ∀ entry ∈ source, Orderly entry
  number : ∀ entry ∈ source, ∀ name value, Sets entry name value →
    ∃ (n : Nat) (origin : Option String),
      value = .scalar (.integer n) origin ∧ given name = some n ∧ n < 2 ^ 63
  said : ∀ name n, given name = some n → ∃ entry ∈ source, ∃ value, Sets entry name value

theorem States.lt {source : List (String × Value)} {given : SettingName → Option Nat}
    (h : States source given) {name : SettingName} {n : Nat} (hn : given name = some n) : n < 2 ^ 63 := by
  obtain ⟨entry, hentry, value, hsets⟩ := h.said name n hn
  obtain ⟨m, -, -, hm, hlt⟩ := h.number entry hentry name value hsets
  rwa [Option.some.inj (hn.symm.trans hm)]

/-- The entries of a section and the integers that they are. -/
def Value.outline (value : Value) : Option (List (String × Option Int)) :=
  value.entries?.map (List.map fun field => (field.1, field.2.integer?))

/-- Whatever is outlined as a section of numbers is one. -/
theorem Value.eq_of_outline {value : Value} {fields : List (String × Nat)}
    (h : value.outline = some (fields.map fun field => (field.1, some (field.2 : Int)))) :
    ∃ entries origin, value = .table entries origin ∧
      (∀ key held, (key, held) ∈ entries →
        ∃ (n : Nat) (origin : Option String), held = .scalar (.integer n) origin ∧ (key, n) ∈ fields) ∧
      ∀ field ∈ fields, ∃ held, (field.1, held) ∈ entries := by
  obtain ⟨entries, hentries, hfields⟩ := Option.map_eq_some_iff.mp h
  obtain ⟨origin, rfl⟩ := eq_of_entries? hentries
  refine ⟨entries, origin, rfl, fun key held hmem => ?_, fun field hfield => ?_⟩
  · have hmem := List.mem_map_of_mem (f := fun field => (field.1, field.2.integer?)) hmem
    rw [hfields] at hmem
    obtain ⟨field, hfield, heq⟩ := List.mem_map.mp hmem
    obtain ⟨rfl, hinteger⟩ := Prod.mk.inj heq
    obtain ⟨origin, rfl⟩ := eq_of_integer? hinteger.symm
    exact ⟨field.2, origin, rfl, hfield⟩
  · have hmem := List.mem_map_of_mem (f := fun field => (field.1, some (field.2 : Int))) hfield
    rw [← hfields] at hmem
    obtain ⟨⟨key, held⟩, hentry, heq⟩ := List.mem_map.mp hmem
    exact ⟨held, (Prod.mk.inj heq).1 ▸ hentry⟩

/-- **What a source of sections says** can be read off its outline. -/
theorem States.of_outline {source : List (String × Value)} {given : SettingName → Option Nat}
    {outline : List (String × List (String × Nat))}
    (hsource : source.map (fun entry => (entry.1, entry.2.outline)) =
      outline.map fun part => (part.1, some (part.2.map fun field => (field.1, some (field.2 : Int)))))
    (hplace : ∀ part ∈ outline, place part.1 = ⟨part.1, []⟩)
    (hnumber : ∀ part ∈ outline, ∀ field ∈ part.2, ∀ name : SettingName,
      lowerCase part.1 = name.sectionName → lowerCase field.1 = name.fieldName →
        given name = some field.2 ∧ field.2 < 2 ^ 63)
    (hsaid : ∀ name : SettingName, given name ≠ none → ∃ part ∈ outline,
      lowerCase part.1 = name.sectionName ∧ ∃ field ∈ part.2, lowerCase field.1 = name.fieldName) :
    States source given := by
  have hentry : ∀ entry ∈ source, ∃ part ∈ outline, entry.1 = part.1 ∧
      entry.2.outline = some (part.2.map fun field => (field.1, some (field.2 : Int))) := by
    intro entry hmem
    have hmem := List.mem_map_of_mem (f := fun entry => (entry.1, entry.2.outline)) hmem
    rw [hsource] at hmem
    obtain ⟨part, hpart, heq⟩ := List.mem_map.mp hmem
    exact ⟨part, hpart, (Prod.mk.inj heq).1.symm, (Prod.mk.inj heq).2.symm⟩
  refine ⟨?_, ?_, ?_⟩
  · rintro ⟨text, value⟩ hmem
    obtain ⟨part, hpart, rfl, houtline⟩ := hentry _ hmem
    obtain ⟨entries, origin, rfl, -⟩ := Value.eq_of_outline houtline
    exact .table (hplace part hpart)
  · rintro ⟨text, value⟩ hmem name held hsets
    obtain ⟨part, hpart, rfl, houtline⟩ := hentry _ hmem
    obtain ⟨entries, origin, rfl, hfields, -⟩ := Value.eq_of_outline houtline
    obtain ⟨hsection, key, hkey, hfield⟩ := (sets_section_iff (hplace part hpart)).mp hsets
    obtain ⟨n, origin, rfl, hn⟩ := hfields key held hkey
    obtain ⟨hgiven, hlt⟩ := hnumber part hpart _ hn name hsection hfield
    exact ⟨n, origin, rfl, hgiven, hlt⟩
  · intro name n hn
    obtain ⟨part, hpart, hsection, field, hfield, hname⟩ := hsaid name (by simp [hn])
    have hmem := List.mem_map_of_mem
      (f := fun part => (part.1, some (part.2.map fun field => (field.1, some (field.2 : Int))))) hpart
    rw [← hsource] at hmem
    obtain ⟨⟨text, value⟩, hentry, heq⟩ := List.mem_map.mp hmem
    obtain ⟨rfl, houtline⟩ := Prod.mk.inj heq
    obtain ⟨entries, origin, rfl, -, hkeys⟩ := Value.eq_of_outline houtline
    obtain ⟨held, hheld⟩ := hkeys field hfield
    exact ⟨_, hentry, held, (sets_section_iff (hplace part hpart)).mpr ⟨hsection, _, hheld, hname⟩⟩

/-! ## What is held after an overlay -/

/-- What is held in a place is what was given to it, or what was held before if nothing was given. -/
def Given (values : Value → Prop) (before after : Option Value) : Prop :=
  (∃ value, values value ∧ after = some value) ∨ (∀ value, ¬values value) ∧ after = before

namespace Given

variable {values more : Value → Prop} {before between after : Option Value}

theorem unchanged (h : ∀ value, ¬values value) : Given values before before := .inr ⟨h, rfl⟩

theorem trans (h : Given values before between) (hmore : Given more between after) :
    Given (fun value => values value ∨ more value) before after := by
  rcases hmore with ⟨value, hvalue, hafter⟩ | ⟨hnothing, rfl⟩
  · exact .inl ⟨value, .inr hvalue, hafter⟩
  rcases h with ⟨value, hvalue, hafter⟩ | ⟨hnone, hafter⟩
  · exact .inl ⟨value, .inl hvalue, hafter⟩
  · exact .inr ⟨fun value => not_or.mpr ⟨hnone value, hnothing value⟩, hafter⟩

theorem congr (h : Given values before after) (hiff : ∀ value, values value ↔ more value) :
    Given more before after := by
  rwa [show more = values from funext fun value => propext (hiff value).symm]

end Given

namespace Value

variable {root : Value}

/-- Whether a value is no collection. -/
def IsScalar (value : Value) : Prop := ∃ content origin, value = scalar content origin

theorem given_assign (root : Value) {key : String} {value : Value} (name : String)
    (hscalar : lowerCase key = name → value.IsScalar) :
    Given (fun held => lowerCase key = name ∧ held = value) (root.find? name)
      ((root.assign key value).find? name) := by
  by_cases h : lowerCase key = name
  · obtain ⟨content, origin, rfl⟩ := hscalar h
    exact .inl ⟨_, ⟨h, rfl⟩, h ▸ find?_assign_scalar root key content origin⟩
  · rw [find?_assign_of_ne (Ne.symm h)]
    exact .unchanged fun _ held => h held.1

theorem given_assignAll (root : Value) {entries : List (String × Value)} (name : String)
    (hscalar : ∀ entry ∈ entries, lowerCase entry.1 = name → entry.2.IsScalar) :
    Given (fun held => ∃ key, (key, held) ∈ entries ∧ lowerCase key = name) (root.find? name)
      ((assignAll root entries).find? name) := by
  induction entries generalizing root with
  | nil => exact .unchanged (by simp)
  | cons entry entries ih =>
    have hfirst := given_assign root name (hscalar entry List.mem_cons_self)
    have hrest := ih (root.assign entry.1 entry.2) fun other hother =>
      hscalar other (List.mem_cons_of_mem _ hother)
    refine (hfirst.trans hrest).congr fun held => ?_
    constructor
    · rintro (⟨hname, rfl⟩ | ⟨key, hmem, hname⟩)
      · exact ⟨entry.1, List.mem_cons_self, hname⟩
      · exact ⟨key, List.mem_cons_of_mem _ hmem, hname⟩
    · rintro ⟨key, hmem, hname⟩
      rcases List.mem_cons.mp hmem with rfl | hmem
      · exact .inl ⟨hname, rfl⟩
      · exact .inr ⟨key, hmem, hname⟩

/-- What is held for a setting. -/
def setting? (root : Value) (name : SettingName) : Option Value :=
  (root.find? name.sectionName).bind (·.find? name.fieldName)

/-- The sections that there are are tables. -/
def Sectioned (root : Value) : Prop :=
  ∀ (name : SettingName) (part : Value), root.find? name.sectionName = some part → part.IsTable

/-- A section that there is not is as good as an empty one. -/
theorem setting?_eq_of_find?_eq_none (absent : Value) {name : SettingName}
    (habsent : absent.find? name.fieldName = none) :
    root.setting? name = ((root.find? name.sectionName).getD absent).find? name.fieldName := by
  rw [setting?]
  cases root.find? name.sectionName with
  | none => exact habsent.symm
  | some part => rfl

theorem find?_assignPath_of_ne {path : Path} {value : Value} {name : String}
    (h : name ≠ lowerCase path.name) :
    (path.assign value root).find? name = root.find? name := by
  obtain ⟨part, steps⟩ := path
  cases steps with
  | nil => exact find?_assign_of_ne h
  | cons step steps => exact (find?_replace root _ _ _).trans (if_neg h)

theorem find?_assignPath_table {part : String} {entries : List (String × Value)} {origin : Option String} :
    ((Path.mk part []).assign (.table entries origin) root).find? (lowerCase part) =
      some (assignAll ((root.find? (lowerCase part)).getD emptyTable) entries) :=
  (find?_replace root _ _ _).trans (if_pos rfl)

theorem find?_assignPath_key {part key : String} {value : Value} :
    ((Path.mk part [.key key]).assign value root).find? (lowerCase part) =
      some (((root.find? (lowerCase part)).getD missing).assign key value) :=
  (find?_replace root _ _ _).trans (if_pos rfl)

theorem sectioned_assignNamed (h : root.Sectioned) {entry : String × Value} (horderly : Orderly entry) :
    (root.assignNamed entry.1 entry.2).Sectioned := by
  intro name part hpart
  rw [assignNamed_eq] at hpart
  by_cases hname : name.sectionName = lowerCase (place entry.1).name
  · cases horderly with
    | elsewhere helsewhere => exact absurd hname (helsewhere name)
    | table hplace =>
      rw [hplace] at hpart hname
      rw [hname, find?_assignPath_table, Option.some.injEq] at hpart
      subst hpart
      refine isTable_assignAll ?_ _
      cases hfound : root.find? (lowerCase _) with
      | none => exact ⟨_, _, rfl⟩
      | some found => exact h name found (hname ▸ hfound)
    | path hplace =>
      rw [hplace] at hpart hname
      rw [hname, find?_assignPath_key, Option.some.injEq] at hpart
      subst hpart
      rw [assign_eq]
      exact isTable_replace _ _ _
  · rw [find?_assignPath_of_ne hname] at hpart
    exact h name part hpart

/-- **What one entry of a source does to a setting.** -/
theorem given_assignNamed (root : Value) {entry : String × Value} (horderly : Orderly entry)
    (name : SettingName) (hscalar : ∀ value, Sets entry name value → value.IsScalar) :
    Given (Sets entry name) (root.setting? name) ((root.assignNamed entry.1 entry.2).setting? name) := by
  rw [assignNamed_eq]
  by_cases hname : name.sectionName = lowerCase (place entry.1).name
  · cases horderly with
    | elsewhere helsewhere => exact absurd hname (helsewhere name)
    | @table text part entries origin hplace =>
      rw [hplace] at hname ⊢
      have hiff (value : Value) : (∃ key, (key, value) ∈ entries ∧ lowerCase key = name.fieldName) ↔
          Sets (text, .table entries origin) name value :=
        (and_iff_right hname.symm).symm.trans (sets_section_iff hplace).symm
      rw [setting?_eq_of_find?_eq_none emptyTable rfl,
        setting?_eq_of_find?_eq_none emptyTable rfl, hname, find?_assignPath_table, Option.getD_some]
      refine (given_assignAll _ name.fieldName fun inner hinner hfield => ?_).congr hiff
      exact hscalar _ ((hiff _).mp ⟨inner.1, hinner, hfield⟩)
    | @path text part key value hplace =>
      rw [hplace] at hname ⊢
      have hiff (held : Value) :
          (lowerCase key = name.fieldName ∧ held = value) ↔ Sets (text, value) name held :=
        (and_iff_right hname.symm).symm.trans (sets_path_iff hplace).symm
      rw [setting?_eq_of_find?_eq_none missing rfl,
        setting?_eq_of_find?_eq_none missing rfl, hname, find?_assignPath_key, Option.getD_some]
      exact (given_assign _ name.fieldName fun hfield => hscalar _ ((hiff _).mp ⟨hfield, rfl⟩)).congr hiff
  · have hkeep : ((place entry.1).assign entry.2 root).setting? name = root.setting? name := by
      rw [setting?, setting?, find?_assignPath_of_ne hname]
    rw [hkeep]
    refine .unchanged fun value hsets => hname ?_
    cases hsets with
    | inSection hplace hsection => rw [hplace, hsection]
    | atPath hplace hsection => rw [hplace, hsection]

/-- **What a source does to a setting.** -/
theorem given_overlay {source : List (String × Value)} (h : root.Sectioned)
    (horderly : ∀ entry ∈ source, Orderly entry)
    (hscalar : ∀ entry ∈ source, ∀ name value, Sets entry name value → value.IsScalar) :
    (root.overlay source).Sectioned ∧ ∀ name,
      Given (fun value => ∃ entry ∈ source, Sets entry name value)
        (root.setting? name) ((root.overlay source).setting? name) := by
  induction source generalizing root with
  | nil => exact ⟨h, fun name => .unchanged (by simp)⟩
  | cons entry source ih =>
    have hentry := horderly entry List.mem_cons_self
    obtain ⟨hsectioned, hgiven⟩ := ih (sectioned_assignNamed h hentry)
      (fun other hother => horderly other (List.mem_cons_of_mem _ hother))
      fun other hother => hscalar other (List.mem_cons_of_mem _ hother)
    refine ⟨hsectioned, fun name => ?_⟩
    have hfirst := given_assignNamed root hentry name (hscalar entry List.mem_cons_self name)
    refine (hfirst.trans (hgiven name)).congr fun value => ?_
    rw [List.exists_mem_cons_iff]

end Value

/-! ## Numbers -/

/-- A number is held just if one is given. -/
def Holds (given : Option Nat) (held : Option Value) : Prop :=
  match given with
  | none => held = none
  | some n => ∃ origin, held = some (.scalar (.integer n) origin)

theorem Holds.eq_none {given : Option Nat} (h : Holds given none) : given = none := by
  cases given with
  | none => rfl
  | some n => exact absurd h (by simp [Holds])

/-- What a source says goes before what was there. -/
theorem States.holds {source : List (String × Value)} {given : SettingName → Option Nat} {root : Value}
    (h : States source given) (old : SettingName → Option Nat) (hroot : root.Sectioned)
    (hold : ∀ name, Holds (old name) (root.setting? name)) :
    (root.overlay source).Sectioned ∧
      ∀ name, Holds ((given name).or (old name)) ((root.overlay source).setting? name) := by
  have hscalar : ∀ entry ∈ source, ∀ name value, Sets entry name value → value.IsScalar := by
    intro entry hentry name value hsets
    obtain ⟨n, origin, rfl, -⟩ := h.number entry hentry name value hsets
    exact ⟨_, _, rfl⟩
  obtain ⟨hsectioned, hgiven⟩ := Value.given_overlay hroot h.orderly hscalar
  refine ⟨hsectioned, fun name => ?_⟩
  rcases hgiven name with ⟨value, ⟨entry, hentry, hsets⟩, hafter⟩ | ⟨hnothing, hafter⟩
  · obtain ⟨n, origin, rfl, hn, -⟩ := h.number entry hentry name value hsets
    rw [hn]
    exact ⟨origin, hafter⟩
  · have hnone : given name = none := by
      refine Option.eq_none_iff_forall_ne_some.mpr fun n hn => ?_
      obtain ⟨entry, hentry, value, hsets⟩ := h.said name n hn
      exact hnothing value ⟨entry, hentry, hsets⟩
    rw [hnone, hafter]
    exact hold name

/-- A whole number is read as itself. -/
theorem Value.setting_of_holds {part : Value} {given : Option Nat} (sectionName fieldName : String)
    (position : Nat) (htable : part.IsTable) (h : Holds given (part.find? fieldName)) :
    part.setting sectionName fieldName position = .ok (given.map UInt64.ofNat) := by
  obtain ⟨entries, origin, rfl⟩ := htable
  cases given with
  | none =>
    have hnone : entries.lookup fieldName = none := h
    rw [setting, hnone]
    rfl
  | some n =>
    obtain ⟨origin', hsome⟩ := h
    have hlookup : entries.lookup fieldName = some (.scalar (.integer n) origin') := hsome
    rw [setting, hlookup]
    have hcount (key : String) : (Value.scalar (.integer n) origin').count key = .ok (.ofNat n) := by
      rw [count, if_neg (Int.not_lt.mpr (Int.natCast_nonneg n)), Int.toNat_natCast]
    exact congrArg (some <$> ·) (hcount _)

/-! ## Variables -/

/-- The variable of the environment that gives a setting. -/
def variableName : SettingName → String
  | .maxEvents => "WINDMILL__LIMITER__MAX_EVENTS"
  | .intervalMillis => "WINDMILL__LIMITER__INTERVAL_MS"
  | .segments => "WINDMILL__LIMITER__SEGMENTS"
  | .cleanupMillis => "WINDMILL__STORE__CLEANUP_INTERVAL_MS"

theorem settingName?_variableName (name : SettingName) :
    settingName? (variableName name) = some (name.sectionName ++ "." ++ name.fieldName) := by
  cases name <;> decide +kernel

theorem place_path (name : SettingName) :
    place (name.sectionName ++ "." ++ name.fieldName) = ⟨name.sectionName, [.key name.fieldName]⟩ := by
  cases name <;> decide +kernel

theorem toLower_of_isDigit {c : Char} (h : Number.isDigit c) : c.toLower = c := by
  have hle : c.val ≤ '9'.val := Char.le_def.mp (Number.isDigit_iff.mp h).2
  refine dif_neg fun hletter => ?_
  exact absurd (UInt32.le_trans hletter.1 hle) (by decide)

/-- A text of digits is no other word. -/
theorem lowerCase_ne_of_isDigit {text word : String} {c letter : Char} {rest letters : List Char}
    (htext : text.toList = c :: rest) (hc : Number.isDigit c) (hword : word.toList = letter :: letters)
    (hletter : Number.isDigit letter = false) : lowerCase text ≠ word := by
  rintro rfl
  rw [lowerCase, htext, String.toList_ofList, List.map_cons, toLower_of_isDigit hc, List.cons.injEq] at hword
  rw [← hword.1, hc] at hletter
  cases hletter

theorem splitSign_of_isDigit {c : Char} {rest : List Char} (h : Number.isDigit c) :
    Number.splitSign (c :: rest) = (false, c :: rest) := by
  unfold Number.splitSign
  split
  · rename_i heq
    cases heq
    cases h
  · rename_i heq
    cases heq
    cases h
  · rfl

/-- The text of a variable that consists of digits means their number. -/
theorem ofVariable_of_natOfDigits? {text : String} {n : Nat} (h : Number.natOfDigits? 10 text.toList = some n)
    (hn : n < 2 ^ 63) : Scalar.ofVariable text = .integer n := by
  obtain ⟨hnil, hdigits⟩ := Number.isDigit_of_natOfDigits? h
  obtain ⟨c, rest, htext⟩ := List.exists_cons_of_ne_nil hnil
  have hc : Number.isDigit c := hdigits c (by rw [htext]; exact List.mem_cons_self)
  have hint : Number.int? 10 text.toList = some (n : Int) := by
    rw [Number.int?, htext, splitSign_of_isDigit hc, ← htext]
    simp only [h, Option.bind_eq_bind, Option.bind_some, Bool.false_eq_true, if_false]
  have hfits : Number.fitsSigned n = true := by
    have htwo : (Number.twoPow 63 : Int) = 2 ^ 63 := by decide
    rw [Number.fitsSigned, htwo, Bool.and_eq_true, decide_eq_true_eq, decide_eq_true_eq]
    omega
  have hsigned : Number.signed? 10 text.toList = some (n : Int) := by
    rw [Number.signed?, hint, Option.filter_some, if_pos hfits]
  have htrue : "true".toList = ['t', 'r', 'u', 'e'] := rfl
  have hfalse : "false".toList = ['f', 'a', 'l', 's', 'e'] := rfl
  simp only [Scalar.ofVariable, lowerCase_ne_of_isDigit htext hc htrue rfl,
    lowerCase_ne_of_isDigit htext hc hfalse rfl, if_false, hsigned]

/-- All that variables of the environment say about settings is a number for each of those that have one in
`given`. Letters of a variable's name may be of either case. -/
structure Variables (environment : List (String × String)) (given : SettingName → Option Nat) : Prop where
  number : ∀ entry ∈ environment, settingName? entry.1 = none ∨ ∃ name n,
    lowerCase entry.1 = lowerCase (variableName name) ∧ Number.natOfDigits? 10 entry.2.toList = some n ∧
    given name = some n ∧ n < 2 ^ 63
  said : ∀ name n, given name = some n →
    ∃ entry ∈ environment, lowerCase entry.1 = lowerCase (variableName name)

/-- Which setting a variable gives does not depend on the case of letters. -/
theorem settingName?_eq_of_lowerCase_eq {text other : String} (h : lowerCase text = lowerCase other) :
    settingName? text = settingName? other := by
  have hlist : text.toList.map Char.toLower = other.toList.map Char.toLower := by
    simpa [lowerCase] using congrArg String.toList h
  rw [settingName?, settingName?, hlist]

theorem lowerCase_sectionName (name : SettingName) : lowerCase name.sectionName = name.sectionName := by
  cases name <;> decide +kernel

theorem lowerCase_fieldName (name : SettingName) : lowerCase name.fieldName = name.fieldName := by
  cases name <;> decide +kernel

/-- An entry that is named by a setting's path gives this setting its value, and no other one. -/
theorem sets_setting_iff {name other : SettingName} {value held : Value} :
    Sets (name.sectionName ++ "." ++ name.fieldName, value) other held ↔ other = name ∧ held = value := by
  rw [sets_path_iff (place_path name), lowerCase_sectionName, lowerCase_fieldName]
  constructor
  · rintro ⟨-, hfield, rfl⟩
    exact ⟨(SettingName.eq_of_fieldName_eq hfield).symm, rfl⟩
  · rintro ⟨rfl, rfl⟩
    exact ⟨rfl, rfl, rfl⟩

theorem settingName?_of_variable {text : String} {name : SettingName}
    (h : lowerCase text = lowerCase (variableName name)) :
    settingName? text = some (name.sectionName ++ "." ++ name.fieldName) := by
  rw [settingName?_eq_of_lowerCase_eq h, settingName?_variableName]

/-- Every variable that gives a setting becomes an entry that is named by the setting's path. -/
theorem Variables.of_mem {environment : List (String × String)} {given : SettingName → Option Nat}
    (h : Variables environment given) {entry : String × Value}
    (hentry : entry ∈ ofEnvironment environment) :
    ∃ (name : SettingName) (n : Nat), entry = (name.sectionName ++ "." ++ name.fieldName,
      .scalar (.integer n) environmentOrigin) ∧ given name = some n ∧ n < 2 ^ 63 := by
  obtain ⟨source, hsource, hmade⟩ := List.mem_filterMap.mp hentry
  rcases h.number source hsource with hnone | ⟨name, n, hname, hdigits, hgiven, hn⟩
  · rw [hnone] at hmade
    cases hmade
  · rw [settingName?_of_variable hname, Option.map_some, Option.some.injEq,
      ofVariable_of_natOfDigits? hdigits hn] at hmade
    exact ⟨name, n, hmade.symm, hgiven, hn⟩

/-- **Variables of the environment are a source** that says what they say. -/
theorem Variables.states {environment : List (String × String)} {given : SettingName → Option Nat}
    (h : Variables environment given) : States (ofEnvironment environment) given where
  orderly entry hentry := by
    obtain ⟨name, n, rfl, -⟩ := h.of_mem hentry
    exact .path (place_path name)
  number entry hentry other held hsets := by
    obtain ⟨name, n, rfl, hgiven, hn⟩ := h.of_mem hentry
    obtain ⟨rfl, rfl⟩ := sets_setting_iff.mp hsets
    exact ⟨n, _, rfl, hgiven, hn⟩
  said name n hgiven := by
    obtain ⟨source, hsource, hname⟩ := h.said name n hgiven
    let entry : String × Value :=
      (name.sectionName ++ "." ++ name.fieldName, .scalar (.ofVariable source.2) environmentOrigin)
    refine ⟨entry, List.mem_filterMap.mpr ⟨source, hsource, ?_⟩, _, sets_setting_iff.mpr ⟨rfl, rfl⟩⟩
    rw [settingName?_of_variable hname]
    rfl

end Layer

namespace Settings

open Layer

theorem limiter_ofValue {part : Value} {given : SettingName → Option Nat} (htable : part.IsTable)
    (h : ∀ name : SettingName, name.sectionName = "limiter" →
      Holds (given name) (part.find? name.fieldName)) :
    LimiterSettings.ofValue part = .ok (GivenLimiter.complete ⟨(given .maxEvents).map UInt64.ofNat,
      (given .intervalMillis).map UInt64.ofNat, (given .segments).map UInt64.ofNat⟩) := by
  have hcheck : part.checkSection .limiterSection = .ok () := by
    obtain ⟨entries, origin, rfl⟩ := htable
    rfl
  rw [LimiterSettings.ofValue, hcheck,
    Value.setting_of_holds "limiter" "max_events" 0 htable (h .maxEvents rfl),
    Value.setting_of_holds "limiter" "interval_ms" 1 htable (h .intervalMillis rfl),
    Value.setting_of_holds "limiter" "segments" 2 htable (h .segments rfl)]
  rfl

theorem store_ofValue {part : Value} {given : SettingName → Option Nat} (htable : part.IsTable)
    (h : Holds (given .cleanupMillis) (part.find? "cleanup_interval_ms")) :
    StoreSettings.ofValue part = .ok (GivenStore.complete ⟨(given .cleanupMillis).map UInt64.ofNat⟩) := by
  have hcheck : part.checkSection .storeSection = .ok () := by
    obtain ⟨entries, origin, rfl⟩ := htable
    rfl
  rw [StoreSettings.ofValue, hcheck, Value.setting_of_holds "store" "cleanup_interval_ms" 0 htable h]
  rfl

/-- **The settings in a table of numbers.** -/
theorem ofTable_of_holds {root : Value} {given : SettingName → Option Nat} (hsections : root.Sectioned)
    (h : ∀ name, Holds (given name) (root.setting? name)) :
    ofTable root = .ok (ofGiven fun name => (given name).map UInt64.ofNat) := by
  have hlimiter : ∃ limiter, (root.find? "limiter").mapM LimiterSettings.ofValue = .ok limiter ∧
      limiter.getD {} = (ofGiven fun name => (given name).map UInt64.ofNat).limiter := by
    cases hpart : root.find? "limiter" with
    | none =>
      have hnone (name : SettingName) (hname : name.sectionName = "limiter") : given name = none :=
        Holds.eq_none (by simpa [Value.setting?, hname, hpart] using h name)
      refine ⟨none, rfl, ?_⟩
      simp only [ofGiven, ofNumbers, hnone _ (rfl : SettingName.sectionName .maxEvents = _),
        hnone _ (rfl : SettingName.sectionName .intervalMillis = _),
        hnone _ (rfl : SettingName.sectionName .segments = _)]
      rfl
    | some part =>
      have hvalue := limiter_ofValue (hsections .maxEvents part hpart) fun name hname => by
        simpa [Value.setting?, hname, hpart] using h name
      exact ⟨_, by rw [Option.mapM_some, hvalue]; rfl, rfl⟩
  have hstore : ∃ store, (root.find? "store").mapM StoreSettings.ofValue = .ok store ∧
      store.getD {} = (ofGiven fun name => (given name).map UInt64.ofNat).store := by
    have hsetting := h .cleanupMillis
    cases hpart : root.find? "store" with
    | none =>
      have hnone : given .cleanupMillis = none :=
        Holds.eq_none (by simpa [Value.setting?, SettingName.sectionName, hpart] using hsetting)
      refine ⟨none, rfl, ?_⟩
      simp only [ofGiven, ofNumbers, hnone]
      rfl
    | some part =>
      have hvalue := @store_ofValue part given (hsections .cleanupMillis part hpart) (by
        simpa [Value.setting?, SettingName.sectionName, SettingName.fieldName, hpart] using hsetting)
      exact ⟨_, by rw [Option.mapM_some, hvalue]; rfl, rfl⟩
  obtain ⟨limiter, hlimiter, hlimiterEq⟩ := hlimiter
  obtain ⟨store, hstore, hstoreEq⟩ := hstore
  rw [ofTable, hlimiter, hstore]
  refine congrArg Except.ok ?_
  rw [GivenSections.complete, hlimiterEq, hstoreEq]

/-- The entries of a file, if there is one. -/
def fileEntries (storage : Storage) : Option String → Except LayerFault (List (String × Value))
  | some path => storage.readLayer path
  | none => .ok []

/-- What is wrong with the settings themselves is told last. -/
theorem load_of_ofSources {storage : Storage} {path : Option String} {environment : List (String × String)}
    {entries : List (String × Value)} {settings : Settings} (hread : fileEntries storage path = .ok entries)
    (h : ofSources [entries, ofEnvironment environment] = .ok settings) :
    load storage path environment =
      match settings.check with
      | .ok _ => .ok settings
      | .error fault => .error (.ofCheck fault) := by
  cases path with
  | none =>
    cases hread
    simp only [load, pure_bind, h]
    rfl
  | some path =>
    rw [fileEntries] at hread
    simp only [load, hread]
    rw [show (Except.ok entries >>= fun file => ofSources [file, ofEnvironment environment]) = _ from h]
    rfl

/-- **The settings in a file and the environment.** Whatever a file says about any of the settings, if there
is a file, and whatever variables of the environment say about any of them, each setting is what its variable
says, if there is one, else what the file says, if it says anything about it, and else its default; whatever
is said about other settings, of the same section too, makes no difference. These settings are the result if
they can be used, and what is wrong with them is told if they cannot. -/
theorem load_layers (storage : Storage) (path : Option String) (environment : List (String × String))
    (inFile inEnvironment : SettingName → Option Nat)
    (hfile : ∃ entries, fileEntries storage path = .ok entries ∧ States entries inFile)
    (henvironment : Variables environment inEnvironment) :
    ∃ settings : Settings,
      (∀ name, (settings.number name).toNat =
        match inEnvironment name, inFile name with
        | some n, _ => n
        | none, some n => n
        | none, none => name.defaultNumber) ∧
      load storage path environment =
        match settings.check with
        | .ok _ => .ok settings
        | .error fault => .error (.ofCheck fault) := by
  obtain ⟨entries, hread, hstates⟩ := hfile
  have hempty : Value.emptyTable.Sectioned := fun _ _ hpart => by cases hpart
  obtain ⟨hsectioned, hfirst⟩ := hstates.holds (fun _ => none) hempty fun _ => rfl
  obtain ⟨hsections, hholds⟩ := henvironment.states.holds _ hsectioned hfirst
  refine ⟨_, fun name => ?_, load_of_ofSources hread (ofTable_of_holds hsections hholds)⟩
  have hword {n : Nat} (hn : n < 2 ^ 63) : (UInt64.ofNat n).toNat = n :=
    UInt64.toNat_ofNat_of_lt' (Nat.lt_trans hn (by decide))
  rw [ofGiven, number_ofNumbers, Option.or_none]
  cases henv : inEnvironment name with
  | some n => exact hword (henvironment.states.lt henv)
  | none =>
    cases hin : inFile name with
    | some n => exact hword (hstates.lt hin)
    | none => exact toNat_number_default name

theorem eq_ok_of_toOption {ε α : Type} {result : Except ε α} {value : α} (h : result.toOption = some value) :
    result = .ok value := by
  cases result with
  | ok _ => exact congrArg Except.ok (Option.some.inj h)
  | error _ => cases h

set_option synthInstance.maxSize 256 in
/-- A file gives two settings of a section. A variable gives one of these anew, another variable gives the
setting of the other section, and the interval keeps its default. -/
theorem load_layers_both :
    let storage : Storage := ⟨"/", fun path => if path = "/rates.yaml"
      then .bytes "limiter:\n  max_events: 7\n  segments: 4\n".toUTF8 else .nothing⟩
    load storage (some "/rates.yaml") [("WINDMILL__LIMITER__MAX_EVENTS", "9"), ("HOME", "/root"),
        ("windmill__store__cleanup_interval_ms", "250")] =
      .ok { limiter := { maxEvents := 9, intervalMillis := 1000, segments := 4 },
            store := { cleanupMillis := 250 } } := by
  intro storage
  let inFile : SettingName → Option Nat
    | .maxEvents => some 7
    | .segments => some 4
    | _ => none
  let inEnvironment : SettingName → Option Nat
    | .maxEvents => some 9
    | .cleanupMillis => some 250
    | _ => none
  let outline : List (String × List (String × Nat)) := [("limiter", [("max_events", 7), ("segments", 4)])]
  have hread : (fileEntries storage (some "/rates.yaml")).toOption.map
      (List.map fun entry => (entry.1, entry.2.outline)) = some (outline.map fun part =>
        (part.1, some (part.2.map fun field => (field.1, some (field.2 : Int))))) := by decide +kernel
  have hfile : ∃ entries,
      fileEntries storage (some "/rates.yaml") = .ok entries ∧ States entries inFile := by
    obtain ⟨entries, hentries, houtline⟩ := Option.map_eq_some_iff.mp hread
    refine ⟨entries, eq_ok_of_toOption hentries, .of_outline houtline ?_ ?_ ?_⟩
    · decide +kernel
    · simp only [outline, List.forall_mem_cons, List.not_mem_nil, false_imp_iff, implies_true, and_true]
      constructor <;> intro name <;> cases name <;> decide +kernel
    · intro name
      cases name <;> decide +kernel
  have henvironment : Variables [("WINDMILL__LIMITER__MAX_EVENTS", "9"), ("HOME", "/root"),
      ("windmill__store__cleanup_interval_ms", "250")] inEnvironment := by
    refine ⟨?_, ?_⟩
    · simp only [List.forall_mem_cons, List.not_mem_nil, false_imp_iff, implies_true, and_true]
      exact ⟨.inr ⟨.maxEvents, 9, by decide +kernel, by decide +kernel, rfl, by decide⟩,
        .inl (by decide +kernel),
        .inr ⟨.cleanupMillis, 250, by decide +kernel, by decide +kernel, rfl, by decide⟩⟩
    · intro name n hn
      cases name with
      | maxEvents => exact ⟨_, List.mem_cons_self, rfl⟩
      | cleanupMillis =>
        exact ⟨_, List.mem_cons_of_mem _ (List.mem_cons_of_mem _ List.mem_cons_self), by decide +kernel⟩
      | intervalMillis => cases hn
      | segments => cases hn
  obtain ⟨settings, hnumbers, hload⟩ :=
    load_layers storage (some "/rates.yaml") _ inFile inEnvironment hfile henvironment
  have hsettings : settings = { limiter := { maxEvents := 9, intervalMillis := 1000, segments := 4 },
                                store := { cleanupMillis := 250 } } := by
    refine eq_of_number_eq fun name => UInt64.toNat_inj.mp ((hnumbers name).trans ?_)
    cases name <;> rfl
  rw [hload, hsettings]
  decide +kernel

end Settings

end Throttle
