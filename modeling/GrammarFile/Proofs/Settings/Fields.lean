import GrammarFile.Proofs.Settings.Assign
import GrammarFile.Proofs.Toml.DistinctNames

/-!
# The fields of settings

Settings have five fields, each under a name of its own in one of three sections. Where every
section is a table (`Setting.HasSections`), settings can be read off a tree of values exactly if
each field can be read off the value at its place (`Settings.ofSetting_eq_ok_iff`), and a value that
is assigned to the place of a field changes that field and no other (`Setting.at?_assignAt`).
-/

namespace GrammarFile

/-! ### Fields -/

/-- The sections of the settings. -/
def Section.all : List Section :=
  [.parsing, .output, .lints]

/-- The names of sections and fields are in lower case. -/
theorem Section.lowercase_names :
    ∀ s ∈ all, Text.lowercase s.name = s.name ∧ ∀ name ∈ s.fields, Text.lowercase name = name := by
  decide +kernel

namespace Settings

/-- A field of the settings. -/
inductive Field where
  | recover
  | maxErrors
  | format
  | lineNumbers
  | lints
  deriving DecidableEq

namespace Field

/-- The section that a field belongs to. -/
def group : Field → Section
  | recover | maxErrors => .parsing
  | format | lineNumbers => .output
  | lints => .lints

/-- The number of a field in its section. -/
def index : Field → Nat
  | recover | format | lints => 0
  | maxErrors | lineNumbers => 1

/-- The name of a field in its section. -/
def name (field : Field) : String :=
  field.group.fields.getD field.index ""

/-- The way to a field from the table of all settings. -/
def path (field : Field) : Key :=
  [.entry field.group.name, .entry field.name]

/-- The value of a field in settings. -/
def value (settings : Settings) : Field → Toml
  | recover => .boolean settings.parser.recover
  | maxErrors => .integer settings.parser.maxErrors
  | format => .string settings.format
  | lineNumbers => .boolean settings.lineNumbers
  | lints => .boolean settings.lints

/-- The value of a field that a value at its place stands for. -/
def read? (field : Field) (setting : Setting) : Option Toml :=
  let key := field.group.name ++ "." ++ field.name
  match field with
  | recover | lineNumbers | lints => (setting.toBool key).toOption.map .boolean
  | maxErrors => (setting.toCount key).toOption.map fun n : Nat => .integer n
  | format => (setting.toText key).toOption.map .string

/-- Every field belongs to one of the sections. -/
theorem group_mem_all (field : Field) : field.group ∈ Section.all := by
  cases field <;> simp [group, Section.all]

/-- Every section has a field. -/
theorem exists_group_eq {s : Section} (h : s ∈ Section.all) : ∃ field : Field, s = field.group := by
  simp only [Section.all, List.mem_cons, List.not_mem_nil, or_false] at h
  obtain rfl | rfl | rfl := h
  exacts [⟨.recover, rfl⟩, ⟨.format, rfl⟩, ⟨.lints, rfl⟩]

/-- The name of a field is one of its section. -/
theorem name_mem_fields (field : Field) : field.name ∈ field.group.fields := by
  cases field <;> decide

/-- The section of a field is named in lower case. -/
theorem lowercase_group (field : Field) : Text.lowercase field.group.name = field.group.name :=
  (Section.lowercase_names field.group field.group_mem_all).1

/-- A field is named in lower case. -/
theorem lowercase_name (field : Field) : Text.lowercase field.name = field.name :=
  (Section.lowercase_names field.group field.group_mem_all).2 field.name field.name_mem_fields

/-- Fields differ in their sections or in their names. -/
theorem eq_of_group_of_name {field other : Field} (hgroup : field.group.name = other.group.name)
    (hname : field.name = other.name) : field = other := by
  revert hgroup hname
  cases field <;> cases other <;> decide

end Field

end Settings

namespace Setting

open Settings (Field)

/-- The value at the place of a field. -/
def at? (setting : Setting) (field : Field) : Option Setting :=
  (setting.get? field.group.name).bind (·.get? field.name)

/-- Whether there is a table under a name. -/
def HasTable (setting : Setting) (name : String) : Prop :=
  ∃ fields, setting.get? name = some fields ∧ fields.IsTable

/-- Whether each section of the settings is a table. -/
def HasSections (setting : Setting) : Prop :=
  ∀ field : Field, setting.HasTable field.group.name

/-! ### Assigning a value to a field -/

/-- Putting a table anywhere keeps each section a table. -/
theorem HasSections.put {setting : Setting} (h : setting.HasSections) (name : String) {fields : Setting}
    (hfields : fields.IsTable) : (setting.put name fields).HasSections := by
  intro field
  rw [HasTable, get?_put]
  split
  · exact ⟨fields, rfl, hfields⟩
  · exact h field

/-- **A value that is assigned to a field takes its place**, and all other fields stay as they are. -/
theorem at?_assignAt {setting : Setting} (h : setting.HasSections) (field : Field) (value : Plain)
    (origin : Option String) (other : Field) :
    (setting.assignAt field.path (plain value origin)).at? other =
      if other = field then some (plain value origin) else setting.at? other := by
  obtain ⟨fields, hfields, -⟩ := h field
  rw [Field.path, assignAt_entry_entry field.lowercase_group field.lowercase_name, hfields, at?, get?_put]
  by_cases hgroup : other.group.name = field.group.name
  · rw [if_pos hgroup, Option.bind_some, Option.getD_some, get?_put, at?, hgroup, hfields,
      Option.bind_some]
    by_cases hname : other.name = field.name
    · rw [if_pos hname, if_pos (Field.eq_of_group_of_name hgroup hname)]
    · rw [if_neg hname, if_neg fun heq => hname (congrArg Field.name heq)]
  · rw [if_neg hgroup, if_neg fun heq => hgroup (congrArg (·.group.name) heq), at?]

/-- Assigning a value to a field keeps each section a table. -/
theorem HasSections.assignAt {setting : Setting} (h : setting.HasSections) (field : Field) (value : Plain)
    (origin : Option String) : (setting.assignAt field.path (plain value origin)).HasSections := by
  rw [Field.path, assignAt_entry_entry field.lowercase_group field.lowercase_name]
  exact h.put _ (isTable_put _ _ _)

end Setting

/-! ### Reading settings off -/

namespace Section

variable {α β : Type}

/-- What a conversion makes of the value of a field of a section. The field is given by its number. -/
def reads? (s : Section) (setting : Setting) (index : Nat)
    (convert : String → Setting → Except SettingsError α) : Option α :=
  let name := s.fields.getD index ""
  ((setting.get? s.name).bind (·.get? name)).bind fun value =>
    (convert (s.name ++ "." ++ name) value).toOption

/-- A value that is required has to be there. -/
theorem require_eq_ok_iff {s : Section} {setting : Setting} {index : Nat} {found : Option α} {a : α} :
    s.require setting index found = .ok a ↔ found = some a := by
  cases found with
  | some value => simp [require]
  | none =>
    rw [require]
    split <;> simp

variable {s : Section} {setting : Setting}

/-- A field of a section that is a table is read if its value converts. -/
theorem field?_eq_ok_some_iff (h : setting.HasTable s.name) {index : Nat}
    {convert : String → Setting → Except SettingsError α} {a : α} :
    s.field? setting index convert = .ok (some a) ↔ s.reads? setting index convert = some a := by
  obtain ⟨_, hfields, entries, origin, rfl⟩ := h
  simp only [field?, reads?, hfields, Option.bind_some]
  change _ ↔ (entries.lookup _).bind _ = _
  cases entries.lookup (s.fields.getD index "") with
  | none => simp
  | some value =>
    simp only [Option.bind_some, map_eq_ok_iff, Option.some.injEq, exists_eq_right, toOption_eq_some_iff]

/-- A section with one field is read if the value converts. -/
theorem single_eq_ok_iff (h : setting.HasTable s.name)
    {convert : String → Setting → Except SettingsError α} {a : α} :
    s.single setting convert = .ok a ↔ s.reads? setting 0 convert = some a := by
  simp only [single, bind_eq_ok_iff, require_eq_ok_iff, exists_eq_right, field?_eq_ok_some_iff h]

/-- A section with two fields is read if both values convert. -/
theorem pair_eq_ok_iff (h : setting.HasTable s.name)
    {first : String → Setting → Except SettingsError α}
    {second : String → Setting → Except SettingsError β} {a : α} {b : β} :
    s.pair setting first second = .ok (a, b) ↔
      s.reads? setting 0 first = some a ∧ s.reads? setting 1 second = some b := by
  simp only [pair, bind_eq_ok_iff, require_eq_ok_iff, ← field?_eq_ok_some_iff h]
  constructor
  · rintro ⟨_, hfirst, _, hsecond, a', rfl, b', rfl, hpair⟩
    cases hpair
    exact ⟨hfirst, hsecond⟩
  · rintro ⟨hfirst, hsecond⟩
    exact ⟨_, hfirst, _, hsecond, a, rfl, b, rfl, rfl⟩

end Section

namespace Settings

/-- To hold of every field is to hold of each of the five. -/
theorem Field.forall_iff {p : Field → Prop} :
    (∀ field, p field) ↔ p .recover ∧ p .maxErrors ∧ p .format ∧ p .lineNumbers ∧ p .lints :=
  ⟨fun h => ⟨h _, h _, h _, h _, h _⟩, fun ⟨h₁, h₂, h₃, h₄, h₅⟩ field => by cases field <;> assumption⟩

/-- Reading a field with its section is reading what stands at its place. -/
theorem Field.reads?_eq_some_iff {α : Type} (field : Field) {toValue : α → Toml}
    (hinj : toValue.Injective) {convert : String → Setting → Except SettingsError α}
    (hread : ∀ value, field.read? value =
      (convert (field.group.name ++ "." ++ field.name) value).toOption.map toValue)
    {setting : Setting} {a : α} :
    field.group.reads? setting field.index convert = some a ↔
      (setting.at? field).bind field.read? = some (toValue a) := by
  rw [Option.bind_congr fun value _ => hread value, ← (Option.map_injective hinj).eq_iff, Section.reads?,
    Option.map_bind]
  rfl

/-- Settings are read section by section. -/
theorem ofSetting_eq_ok_iff_sections {setting : Setting} {settings : Settings} :
    ofSetting setting = .ok settings ↔
      Section.parsing.pair setting Setting.toBool Setting.toCount =
          .ok (settings.parser.recover, settings.parser.maxErrors) ∧
        Section.output.pair setting Setting.toText Setting.toBool =
          .ok (settings.format, settings.lineNumbers) ∧
        Section.lints.single setting Setting.toBool = .ok settings.lints := by
  simp only [ofSetting, bind_eq_ok_iff]
  constructor
  · rintro ⟨_, hparsing, _, houtput, _, hlints, hok⟩
    cases hok
    exact ⟨hparsing, houtput, hlints⟩
  · rintro ⟨hparsing, houtput, hlints⟩
    exact ⟨_, hparsing, _, houtput, _, hlints, rfl⟩

/-- **Settings can be read off a tree of values exactly if each field can be read off the value at
its place.** -/
theorem ofSetting_eq_ok_iff {setting : Setting} (h : setting.HasSections) {settings : Settings} :
    ofSetting setting = .ok settings ↔
      ∀ field : Field, (setting.at? field).bind field.read? = some (field.value settings) := by
  have hparsing : Section.parsing.pair setting Setting.toBool Setting.toCount =
        .ok (settings.parser.recover, settings.parser.maxErrors) ↔ _ :=
    Section.pair_eq_ok_iff (h .recover)
  have houtput : Section.output.pair setting Setting.toText Setting.toBool =
        .ok (settings.format, settings.lineNumbers) ↔ _ :=
    Section.pair_eq_ok_iff (h .format)
  have hlints : Section.lints.single setting Setting.toBool = .ok settings.lints ↔ _ :=
    Section.single_eq_ok_iff (h .lints)
  have hboolean : Function.Injective Toml.boolean := fun _ _ => Toml.boolean.inj
  have hcount : Function.Injective fun n : Nat => Toml.integer n :=
    fun _ _ h => Int.ofNat.inj (Toml.integer.inj h)
  have hstring : Function.Injective Toml.string := fun _ _ => Toml.string.inj
  rw [ofSetting_eq_ok_iff_sections, hparsing, houtput, hlints, Field.forall_iff, and_assoc, and_assoc]
  exact and_congr (Field.recover.reads?_eq_some_iff hboolean fun _ => rfl) <|
    and_congr (Field.maxErrors.reads?_eq_some_iff hcount fun _ => rfl) <|
    and_congr (Field.format.reads?_eq_some_iff hstring fun _ => rfl) <|
    and_congr (Field.lineNumbers.reads?_eq_some_iff hboolean fun _ => rfl)
      (Field.lints.reads?_eq_some_iff hboolean fun _ => rfl)

/-! ### Values of fields -/

/-- A value of the sort that a field has is read as it is. -/
theorem Field.value_eq_of_sort_eq {field : Field} {settings : Settings} {value : Toml} {origin : String}
    (hread : field.read? (value.toSetting origin) = some (field.value settings))
    (hsort : value.sort = (field.value settings).sort) : field.value settings = value := by
  cases field with
  | recover | lineNumbers | lints =>
    cases value with
    | boolean b => exact (Option.some.inj hread).symm
    | _ => simp [Field.value, Toml.sort] at hsort
  | format =>
    cases value with
    | string text => exact (Option.some.inj hread).symm
    | _ => simp [Field.value, Toml.sort] at hsort
  | maxErrors =>
    cases value with
    | integer n =>
      rw [Field.read?, Toml.toSetting, Setting.toCount] at hread
      split at hread
      · rename_i hn
        rw [← Option.some.inj hread]
        exact congrArg Toml.integer (Int.toNat_of_nonneg hn)
      · cases hread
    | _ => simp [Field.value, Toml.sort] at hsort

/-- Settings are written with a table for each section. -/
theorem hasSections_toSetting (settings : Settings) : settings.toSetting.HasSections := by
  intro field
  cases field <;> exact ⟨_, rfl, _, _, rfl⟩

/-- Each field is read back from the tree that settings are written as. -/
theorem bind_read?_toSetting (settings : Settings) (field : Field) :
    (settings.toSetting.at? field).bind field.read? = some (field.value settings) := by
  cases field <;> rfl

/-- Settings are read off the tree of values that they are written as. -/
theorem ofSetting_toSetting (settings : Settings) : ofSetting settings.toSetting = .ok settings :=
  (ofSetting_eq_ok_iff settings.hasSections_toSetting).mpr settings.bind_read?_toSetting

end Settings

end GrammarFile
