import GrammarFile.CommandLine.Run
import GrammarFile.Proofs.Settings.Fields

/-!
# Layers of settings

A file of settings that holds nothing but tables for the sections changes the fields that it names
and no others (`Settings.after_addFile`), and so does a flag of the command line. So a field has
what the last of the layers says about it: the flags come after the file that the command line
names, that one comes after the file of the project, and the defaults come first
(`Settings.after_gather`, `Settings.load_layers_eq_ok_iff`).
-/

namespace GrammarFile

/-! ### Documents -/

/-- The entries of a table. -/
def Toml.entries? : Toml → Option (List (String × Toml))
  | table entries => some entries
  | _ => none

namespace Settings

/-- The entries of a document are taken over one by one. -/
theorem entriesToSettings_eq_map (origin : String) (entries : List (String × Toml)) :
    entriesToSettings origin entries = entries.map fun entry => (entry.1, entry.2.toSetting origin) := by
  induction entries with
  | nil => rw [entriesToSettings, List.map_nil]
  | cons entry entries ih => rw [entriesToSettings, ih, List.map_cons]

/-- What is found under a name is what the document has there. -/
theorem lookup_entriesToSettings (origin : String) (entries : List (String × Toml)) (name : String) :
    (entriesToSettings origin entries).lookup name = (entries.lookup name).map (·.toSetting origin) := by
  induction entries with
  | nil => rw [entriesToSettings, List.lookup_nil, List.lookup_nil, Option.map_none]
  | cons entry entries ih =>
    rw [entriesToSettings, lookup_cons_eq_ite, lookup_cons_eq_ite, ih]
    split <;> rfl

/-- Each entry of a table changes what stands under its name. -/
theorem get?_assignAll_entriesToSettings {entries : List (String × Toml)}
    (hlower : ∀ entry ∈ entries, Text.lowercase entry.1 = entry.1) (hnames : (entries.map (·.1)).Nodup)
    (setting : Setting) (origin name : String) :
    (setting.assignAll (entriesToSettings origin entries)).get? name =
      (entries.lookup name).elim (setting.get? name) fun value =>
        some (Setting.merge (setting.get? name) (value.toSetting origin)) := by
  have hlower' : ∀ entry ∈ entriesToSettings origin entries, Text.lowercase entry.1 = entry.1 := by
    rw [entriesToSettings_eq_map, List.forall_mem_map]
    exact hlower
  have hnames' : ((entriesToSettings origin entries).map (·.1)).Nodup := by
    rwa [entriesToSettings_eq_map, List.map_map]
  rw [Setting.get?_assignAll hlower' hnames', lookup_entriesToSettings, Option.elim_map]
  rfl

/-- Whether a document holds nothing but tables for the sections, with names in lower case. -/
def SectionsOnly (document : List (String × Toml)) : Prop :=
  ∀ entry ∈ document, (∃ s ∈ Section.all, entry.1 = s.name) ∧
    ∃ fields ∈ entry.2.entries?, ∀ field ∈ fields, Text.lowercase field.1 = field.1

instance : DecidablePred SectionsOnly := fun document =>
  inferInstanceAs (Decidable (∀ entry ∈ document, _ ∧ ∃ fields ∈ entry.2.entries?, _))

/-- The value that a document has for a field. -/
def Field.in? (field : Field) (document : List (String × Toml)) : Option Toml :=
  ((document.lookup field.group.name).bind Toml.entries?).bind (·.lookup field.name)

/-- The entries of such a document stand under sections of fields. -/
theorem SectionsOnly.exists_group {document : List (String × Toml)} (h : SectionsOnly document)
    {entry : String × Toml} (hentry : entry ∈ document) :
    ∃ field : Field, entry.1 = field.group.name := by
  obtain ⟨⟨s, hs, hname⟩, -⟩ := h entry hentry
  obtain ⟨field, rfl⟩ := Field.exists_group_eq hs
  exact ⟨field, hname⟩

/-- The entries of such a document are tables with names in lower case. -/
theorem SectionsOnly.exists_fields {document : List (String × Toml)} (h : SectionsOnly document)
    {entry : String × Toml} (hentry : entry ∈ document) :
    ∃ fields, entry.2 = .table fields ∧ ∀ field ∈ fields, Text.lowercase field.1 = field.1 := by
  obtain ⟨fields, hfields, hlower⟩ := (h entry hentry).2
  refine ⟨fields, ?_, hlower⟩
  obtain ⟨name, value⟩ := entry
  cases value with
  | table entries => rw [Option.some.inj hfields]
  | _ => cases hfields

/-- The name of a section is a path with one step. -/
theorem Field.read?_group_name (field : Field) :
    Key.read? field.group.name = some [.entry field.group.name] := by
  cases field <;> decide +kernel

/-- Entries under the names of sections are assigned name by name. -/
theorem foldl_assignEntry {entries : List (String × Setting)}
    (h : ∀ entry ∈ entries, ∃ field : Field, entry.1 = field.group.name) (setting : Setting) :
    entries.foldl assignEntry setting = setting.assignAll entries := by
  induction entries generalizing setting with
  | nil => rw [List.foldl_nil, Setting.assignAll]
  | cons entry entries ih =>
    obtain ⟨⟨field, hfield⟩, hrest⟩ := List.forall_mem_cons.mp h
    obtain ⟨name, value⟩ := entry
    obtain rfl : name = field.group.name := hfield
    rw [List.foldl_cons, ih hrest, Setting.assignAll, assignEntry, field.read?_group_name]
    rfl

/-- **A document changes the fields that it has values for**, and all other fields stay as they are. -/
theorem after_document {document : List (String × Toml)} (hsections : SectionsOnly document)
    (hdistinct : (Toml.table document).Distinct) {setting : Setting} (h : setting.HasSections)
    (origin : String) :
    ((entriesToSettings origin document).foldl assignEntry setting).HasSections ∧
      ∀ field : Field, ((entriesToSettings origin document).foldl assignEntry setting).at? field =
        (field.in? document).elim (setting.at? field) fun value =>
          some (Setting.merge (setting.at? field) (value.toSetting origin)) := by
  cases hdistinct with | table hnames hparts => ?_
  have hlower : ∀ entry ∈ document, Text.lowercase entry.1 = entry.1 := by
    intro entry hentry
    obtain ⟨field, hfield⟩ := hsections.exists_group hentry
    rw [hfield, field.lowercase_group]
  have hnamed : ∀ entry ∈ entriesToSettings origin document,
      ∃ field : Field, entry.1 = field.group.name := by
    rw [entriesToSettings_eq_map, List.forall_mem_map]
    exact fun entry hentry => hsections.exists_group hentry
  rw [foldl_assignEntry hnamed]
  refine forall_and.mp fun field => ?_
  -- the names of a document lead to sections, and the names in one of its tables to fields: both
  -- are merged alike
  obtain ⟨old, hold, htable⟩ := h field
  rw [Setting.HasTable, Setting.at?, Setting.at?, get?_assignAll_entriesToSettings hlower hnames,
    hold, Field.in?]
  cases hlookup : document.lookup field.group.name with
  | none => exact ⟨⟨old, rfl, htable⟩, rfl⟩
  | some value =>
    have hmem := mem_of_lookup_eq_some hlookup
    obtain ⟨fields, rfl, hfields⟩ := hsections.exists_fields hmem
    cases hparts _ hmem with | table hfieldNames _ => ?_
    have hmerge : Setting.merge (some old) ((Toml.table fields).toSetting origin) =
        old.assignAll (entriesToSettings origin fields) := by
      rw [Toml.toSetting]
      rfl
    refine ⟨⟨_, rfl, hmerge ▸ Setting.isTable_assignAll htable _⟩, ?_⟩
    rw [Option.elim_some, Option.bind_some, hmerge, get?_assignAll_entriesToSettings hfields hfieldNames,
      Option.bind_some, Option.bind_some, Toml.entries?, Option.bind_some]

/-! ### Files -/

/-- The document that a settings file holds, if it can be read. -/
def document? (files : Files) (path : String) : Option (List (String × Toml)) := do
  let path ← findFile? files path
  let text ← (files path).text.toOption
  (Toml.read text).toOption

/-- A file that is added holds a document without repeated names, or is not there. -/
theorem addFile_eq_ok {files : Files} {required : Bool} {path : String} {setting after : Setting}
    (hok : addFile files required path setting = .ok after) :
    (document? files path = none ∧ after = setting) ∨
      ∃ document origin, document? files path = some document ∧ (Toml.table document).Distinct ∧
        after = (entriesToSettings origin document).foldl assignEntry setting := by
  rw [document?]
  rw [addFile] at hok
  cases hfind : findFile? files path with
  | none =>
    rw [hfind] at hok
    cases required with
    | true => cases hok
    | false => exact .inl ⟨rfl, (Except.ok.inj hok).symm⟩
  | some found =>
    simp only [hfind] at hok
    cases htext : (files found).text with
    | error e =>
      rw [htext] at hok
      cases required with
      | true => cases hok
      | false => exact .inl ⟨by simp [htext, Except.toOption], (Except.ok.inj hok).symm⟩
    | ok text =>
      simp only [htext] at hok
      cases hread : Toml.read text with
      | error fault =>
        rw [hread] at hok
        cases hok
      | ok entries =>
        rw [hread] at hok
        exact .inr ⟨entries, _, by simp [htext, hread, Except.toOption], Toml.distinct_of_read hread,
          (Except.ok.inj hok).symm⟩

/-- The value that the document at a path has for a field. -/
def Field.inFile? (field : Field) (files : Files) (path : String) : Option Toml :=
  (document? files path).bind field.in?

/-- Whether the value of a field follows what is said about it: it stays where nothing is said, and
it is what is said unless that is a table, which would be merged into what is there. -/
structure Follows (said : Option Toml) (before after : Option Setting) : Prop where
  kept : said = none → after = before
  taken : ∀ value, said = some value → (∀ fields, value ≠ .table fields) →
    ∃ origin, after = some (value.toSetting origin)

/-- Where nothing is said the value stays. -/
theorem Follows.unsaid {value : Option Setting} : Follows none value value :=
  ⟨fun _ => rfl, nofun⟩

/-- What is said later wins. -/
theorem Follows.trans {first second : Option Toml} {before between after : Option Setting}
    (hfirst : Follows first before between) (hsecond : Follows second between after) :
    Follows (second.or first) before after := by
  cases second with
  | none => rwa [Option.none_or, hsecond.kept rfl]
  | some value => exact ⟨nofun, hsecond.taken⟩

/-- Merging what is said into a value follows it. -/
theorem follows_merge (said : Option Toml) (origin : String) (before : Option Setting) :
    Follows said before
      (said.elim before fun value => some (Setting.merge before (value.toSetting origin))) := by
  refine ⟨fun hnone => by rw [hnone, Option.elim_none], fun value hvalue hplain => ⟨origin, ?_⟩⟩
  rw [hvalue, Option.elim_some]
  cases value with
  | table fields => exact absurd rfl (hplain fields)
  | string | integer | float | boolean | moment | array => simp only [Toml.toSetting, Setting.merge]

/-- **A settings file changes the fields that it has values for**, and all other fields stay as they
are. -/
theorem after_addFile {files : Files} {required : Bool} {path : String} {setting after : Setting}
    (hsections : ∀ document ∈ document? files path, SectionsOnly document) (h : setting.HasSections)
    (hok : addFile files required path setting = .ok after) :
    after.HasSections ∧ ∀ field : Field,
      Follows (field.inFile? files path) (setting.at? field) (after.at? field) := by
  simp only [Field.inFile?]
  obtain ⟨hdocument, rfl⟩ | ⟨document, origin, hdocument, hdistinct, rfl⟩ := addFile_eq_ok hok
  · rw [hdocument]
    exact ⟨h, fun field => .unsaid⟩
  · obtain ⟨hafter, hfields⟩ := after_document (hsections document hdocument) hdistinct h origin
    rw [hdocument]
    exact ⟨hafter, fun field => hfields field ▸ follows_merge _ origin _⟩

/-- The tree of values that the settings files stand for. -/
def gather (files : Files) (config : Option String) : Except SettingsError Setting := do
  let setting ← addFile files false projectSettings default.toSetting
  config.elim (.ok setting) fun path => addFile files true path setting

/-- What the settings files say about a field. The file that is named comes after the one of the
project. -/
def Field.said? (field : Field) (files : Files) (config : Option String) : Option Toml :=
  (config.bind (field.inFile? files)).or (field.inFile? files projectSettings)

/-- **The file that is named wins over the one of the project**, and both win over the defaults. -/
theorem after_gather {files : Files} {config : Option String} {setting : Setting}
    (hproject : ∀ document ∈ document? files projectSettings, SectionsOnly document)
    (hconfig : ∀ path ∈ config, ∀ document ∈ document? files path, SectionsOnly document)
    (hok : gather files config = .ok setting) :
    setting.HasSections ∧ ∀ field : Field,
      Follows (field.said? files config) (default.toSetting.at? field) (setting.at? field) := by
  obtain ⟨project, hfirst, hsecond⟩ := bind_eq_ok_iff.mp hok
  obtain ⟨hsections, hfollows⟩ := after_addFile hproject default.hasSections_toSetting hfirst
  cases config with
  | none =>
    cases hsecond
    exact ⟨hsections, hfollows⟩
  | some path =>
    obtain ⟨hafter, hfollows'⟩ := after_addFile (hconfig path rfl) hsections hsecond
    exact ⟨hafter, fun field => (hfollows field).trans (hfollows' field)⟩

end Settings

/-! ### Flags -/

open Settings (Field)

/-- The values that the flags of a command line give to fields. -/
def Arguments.flags (arguments : Arguments) : List (Field × Setting.Plain) :=
  (if arguments.noRecover then [(.recover, .boolean false), (.maxErrors, .integer 1)] else []) ++
    (if arguments.lineNumbers then [(.lineNumbers, .boolean true)] else [])

/-- The value that a flag of a command line gives to a field. -/
def Arguments.flag? (arguments : Arguments) : Field → Option Setting.Plain
  | .recover => if arguments.noRecover then some (.boolean false) else none
  | .maxErrors => if arguments.noRecover then some (.integer 1) else none
  | .lineNumbers => if arguments.lineNumbers then some (.boolean true) else none
  | .format | .lints => none

/-- The flags give no field two values. -/
theorem Arguments.nodup_flags (arguments : Arguments) : (arguments.flags.map (·.1)).Nodup := by
  rw [flags]
  cases arguments.noRecover <;> cases arguments.lineNumbers <;> decide

/-- The value that the flags give to a field is found among them. -/
theorem Arguments.lookup_flags (arguments : Arguments) (field : Field) :
    arguments.flags.lookup field = arguments.flag? field := by
  obtain ⟨path, format, config, check, noRecover, lineNumbers, listFormats⟩ := arguments
  cases field <;> cases noRecover <;> cases lineNumbers <;> rfl

/-- Without flags no field is given a value. -/
theorem Arguments.flag?_eq_none {arguments : Arguments} (hrecover : arguments.noRecover = false)
    (hlines : arguments.lineNumbers = false) (field : Field) : arguments.flag? field = none := by
  cases field <;> simp [flag?, hrecover, hlines]

namespace Settings

/-- A tree of values after the assignment of values to fields. -/
def override (setting : Setting) (flags : List (Field × Setting.Plain)) : Setting :=
  flags.foldl (fun setting (field, value) => setting.assignAt field.path (.plain value none)) setting

/-- An override leaves each field with its flag, or else as it was. -/
theorem after_override {flags : List (Field × Setting.Plain)} (hflags : (flags.map (·.1)).Nodup)
    {setting : Setting} (h : setting.HasSections) :
    (override setting flags).HasSections ∧ ∀ field : Field,
      (override setting flags).at? field =
        ((flags.lookup field).map (.plain · none)).or (setting.at? field) := by
  induction flags generalizing setting with
  | nil => exact ⟨h, fun field => rfl⟩
  | cons flag flags ih =>
    obtain ⟨first, value⟩ := flag
    obtain ⟨hnotMem, hnodup⟩ := List.nodup_cons.mp hflags
    obtain ⟨hafter, hfields⟩ := ih hnodup (h.assignAt first value none)
    refine ⟨hafter, fun field => (hfields field).trans ?_⟩
    rw [Setting.at?_assignAt h, List.lookup_cons]
    by_cases hfield : field = first
    · rw [if_pos hfield, hfield, lookup_eq_none_of_notMem hnotMem, beq_self_eq_true]
      rfl
    · rw [if_neg hfield, beq_false_of_ne hfield]

/-- The layer that gives a value to a field. -/
def Field.layer (field : Field) (value : Setting.Plain) : Layer :=
  .override (field.group.name ++ "." ++ field.name) value

/-- The dotted name of a field is its path. -/
theorem Field.read?_key (field : Field) :
    Key.read? (field.group.name ++ "." ++ field.name) = some field.path := by
  cases field <;> decide +kernel

/-- The overrides that flags make assign to the paths of their fields. -/
theorem overrides_map_layer (flags : List (Field × Setting.Plain)) :
    overrides (flags.map fun flag => flag.1.layer flag.2) =
      .ok (flags.map fun flag => (flag.1.path, .plain flag.2 none)) := by
  induction flags with
  | nil => rfl
  | cons flag flags ih =>
    rw [List.map_cons, Field.layer, overrides, flag.1.read?_key, ih]
    rfl

/-- Flags add no file. -/
theorem foldlM_addLayer_map_layer (files : Files) (flags : List (Field × Setting.Plain))
    (setting : Setting) :
    (flags.map fun flag => flag.1.layer flag.2).foldlM (addLayer files) setting = .ok setting := by
  induction flags with
  | nil => rfl
  | cons flag flags ih => exact ih

/-- The layers of a command line are the files in order, and then the flags. -/
theorem layers_eq (arguments : Arguments) :
    arguments.layers = .optionalFile projectSettings ::
      ((arguments.config.map .file).toList ++ arguments.flags.map fun flag => flag.1.layer flag.2) := by
  have hrecover :
      Field.recover.layer (.boolean false) = .override "parsing.recover" (.boolean false) := by
    decide +kernel
  have hmaxErrors : Field.maxErrors.layer (.integer 1) = .override "parsing.max_errors" (.integer 1) := by
    decide +kernel
  have hlineNumbers : Field.lineNumbers.layer (.boolean true) =
      .override "output.show_line_numbers" (.boolean true) := by
    decide +kernel
  rw [Arguments.layers, Arguments.flags, List.append_assoc, List.append_assoc, List.singleton_append]
  cases arguments.noRecover <;> cases arguments.lineNumbers <;> simp [hrecover, hmaxErrors, hlineNumbers]

/-- Settings are loaded from the files first, and then overridden by the flags. -/
theorem load_layers (files : Files) (arguments : Arguments) :
    load files arguments.layers =
      gather files arguments.config >>= fun setting =>
        ofSetting (override setting arguments.flags) := by
  have hoverrides : overrides arguments.layers =
      .ok (arguments.flags.map fun flag => (flag.1.path, .plain flag.2 none)) := by
    -- files are no overrides, so their layers are passed over
    rw [layers_eq]
    cases arguments.config <;> exact overrides_map_layer _
  have hfiles :
      arguments.layers.foldlM (addLayer files) default.toSetting =
        gather files arguments.config := by
    rw [layers_eq, gather, List.foldlM_cons]
    refine bind_congr fun setting => ?_
    cases arguments.config with
    | none => exact foldlM_addLayer_map_layer files _ _
    | some path =>
      exact (bind_congr fun _ => foldlM_addLayer_map_layer files _ _).trans (bind_pure _)
  rw [load, hoverrides, hfiles]
  refine bind_congr fun setting => congrArg ofSetting ?_
  rw [override, List.foldl_map]

/-! ### All layers -/

/-- A value of the sort of a field is no table. -/
theorem Field.ne_table_of_sort_eq {field : Field} {settings : Settings} {value : Toml}
    (hsort : value.sort = (field.value settings).sort) (fields : List (String × Toml)) :
    value ≠ .table fields := by
  rintro rfl
  cases field <;> simp [Field.value, Toml.sort] at hsort

section

variable {files : Files} (arguments : Arguments)
  (hproject : ∀ document ∈ document? files projectSettings, SectionsOnly document)
  (hconfig : ∀ path ∈ arguments.config, ∀ document ∈ document? files path, SectionsOnly document)

include hproject hconfig

/-- **Each field is read off what a flag says about it, or else off what the files give.** -/
theorem load_layers_eq_ok_iff {settings : Settings} :
    load files arguments.layers = .ok settings ↔
      ∃ setting, gather files arguments.config = .ok setting ∧
        ∀ field : Field,
          (((arguments.flag? field).map (.plain · none)).or (setting.at? field)).bind field.read? =
          some (field.value settings) := by
  rw [load_layers, bind_eq_ok_iff]
  refine exists_congr fun setting => and_congr_right fun hgather => ?_
  obtain ⟨hsections, hfields⟩ :=
    after_override arguments.nodup_flags (after_gather hproject hconfig hgather).1
  simp only [ofSetting_eq_ok_iff hsections, hfields, Arguments.lookup_flags]

variable {settings : Settings} (hload : load files arguments.layers = .ok settings) (field : Field)

include hload

/-- A flag gives a field its value in the settings that are loaded. -/
theorem read?_flag_of_load {flag : Setting.Plain} (hflag : arguments.flag? field = some flag) :
    field.read? (.plain flag none) = some (field.value settings) := by
  obtain ⟨setting, -, hread⟩ := (load_layers_eq_ok_iff arguments hproject hconfig).mp hload
  have hfield := hread field
  rwa [hflag, Option.map_some, Option.some_or, Option.bind_some] at hfield

/-- A field without a flag has the value of its own sort that the settings files give it, and its
default if they give none. -/
theorem value_of_load (hflag : arguments.flag? field = none) :
    (∀ value, field.said? files arguments.config = some value →
      value.sort = (field.value settings).sort → field.value settings = value) ∧
    (field.said? files arguments.config = none → field.value settings = field.value default) := by
  obtain ⟨setting, hgather, hread⟩ := (load_layers_eq_ok_iff arguments hproject hconfig).mp hload
  have hfollows := (after_gather hproject hconfig hgather).2 field
  have hfield := hread field
  rw [hflag, Option.map_none, Option.none_or] at hfield
  constructor
  · intro value hsaid hsort
    obtain ⟨origin, hat⟩ := hfollows.taken value hsaid (Field.ne_table_of_sort_eq hsort)
    rw [hat] at hfield
    exact Field.value_eq_of_sort_eq hfield hsort
  · intro hsaid
    rw [hfollows.kept hsaid, bind_read?_toSetting] at hfield
    exact (Option.some.inj hfield).symm

end

/-- A flag changes the fields that it gives values to, and no others. -/
theorem bind_read?_flag (arguments : Arguments) {settings : Settings} {field : Field}
    {value : Option Setting} (h : value.bind field.read? = some (field.value settings)) :
    (((arguments.flag? field).map (.plain · none)).or value).bind field.read? =
      some (field.value { settings with
        parser := if arguments.noRecover then .failFast else settings.parser
        lineNumbers := arguments.lineNumbers || settings.lineNumbers }) := by
  obtain ⟨path, format, config, check, noRecover, lineNumbers, listFormats⟩ := arguments
  cases field with
  | recover | maxErrors => cases noRecover; exacts [h, rfl]
  | lineNumbers => cases lineNumbers; exacts [h, rfl]
  | format | lints => exact h

/-- **Flags win over files and change their own fields alone, and the file that is named wins over
the one of the project.** Where the settings files hold nothing but tables for the sections,
settings with flags are those without them but for the fields that the flags are about. A field
without a flag has the value that the files give it, if that is of its own sort, and its default if
they give none. -/
theorem load_arguments (files : Files) (arguments : Arguments)
    (hproject : ∀ document ∈ document? files projectSettings, SectionsOnly document)
    (hconfig : ∀ path ∈ arguments.config, ∀ document ∈ document? files path, SectionsOnly document) :
    (∀ settings,
      load files { arguments with noRecover := false, lineNumbers := false }.layers = .ok settings →
      load files arguments.layers = .ok { settings with
        parser := if arguments.noRecover then .failFast else settings.parser
        lineNumbers := arguments.lineNumbers || settings.lineNumbers }) ∧
    ∀ settings, load files arguments.layers = .ok settings →
      (arguments.noRecover → settings.parser = .failFast) ∧
        (arguments.lineNumbers → settings.lineNumbers = true) ∧
      ∀ field : Field, arguments.flag? field = none →
        (∀ value, field.said? files arguments.config = some value →
          value.sort = (field.value settings).sort → field.value settings = value) ∧
        (field.said? files arguments.config = none → field.value settings = field.value default) := by
  constructor
  · intro settings hload
    obtain ⟨setting, hgather, hread⟩ :=
      (load_layers_eq_ok_iff { arguments with noRecover := false, lineNumbers := false }
        hproject hconfig).mp hload
    refine (load_layers_eq_ok_iff arguments hproject hconfig).mpr ⟨setting, hgather, fun field => ?_⟩
    have hfield := hread field
    rw [Arguments.flag?_eq_none rfl rfl, Option.map_none, Option.none_or] at hfield
    exact bind_read?_flag arguments hfield
  · intro settings hload
    refine ⟨fun hnoRecover => ?_, fun hlineNumbers => ?_, value_of_load arguments hproject hconfig hload⟩
    · have hrecover : Toml.boolean false = .boolean settings.parser.recover :=
        Option.some.inj (read?_flag_of_load arguments hproject hconfig hload .recover (if_pos hnoRecover))
      have hmaxErrors : Toml.integer (1 : Nat) = .integer settings.parser.maxErrors :=
        Option.some.inj
          (read?_flag_of_load arguments hproject hconfig hload .maxErrors (if_pos hnoRecover))
      obtain ⟨⟨recover, maxErrors⟩, format, lineNumbers, lints⟩ := settings
      cases hrecover
      cases hmaxErrors
      rfl
    · have hlines : Toml.boolean true = .boolean settings.lineNumbers :=
        Option.some.inj
          (read?_flag_of_load arguments hproject hconfig hload .lineNumbers (if_pos hlineNumbers))
      exact (Toml.boolean.inj hlines).symm

/-- A settings file of a project, and one for a command line to name. -/
def twoFiles : Files := fun path =>
  if path = "par.toml" then
    .file "[parsing]\nmax_errors = 7\n[output]\nformat = \"ast-tag\"".toByteArray.data.toList
  else if path = "ci.toml" then .file "output = \x7b format = \"ast-par\" \x7d".toByteArray.data.toList
  else .missing

/-- The file that is named changes the format and leaves the limit of errors to the project. Then
flags take the limit over. -/
theorem load_arguments_twoFiles :
    load twoFiles (Arguments.layers ⟨none, none, some "ci.toml", false, true, true, false⟩) =
        .ok ⟨.failFast, "ast-par", true, true⟩ ∧
      Field.format.said? twoFiles (some "ci.toml") = some (.string "ast-par") := by
  have hproject : ∀ document ∈ document? twoFiles projectSettings, SectionsOnly document := by
    decide +kernel
  have hconfig :
      ∀ path ∈ some "ci.toml", ∀ document ∈ document? twoFiles path, SectionsOnly document := by
    decide +kernel
  have hplain :
      load twoFiles (Arguments.layers ⟨none, none, some "ci.toml", false, false, false, false⟩) =
      .ok ⟨⟨true, 7⟩, "ast-par", false, true⟩ :=
    toOption_eq_some_iff.mp (by decide +kernel)
  obtain ⟨hflagged, hloaded⟩ :=
    load_arguments twoFiles ⟨none, none, some "ci.toml", false, true, true, false⟩ hproject hconfig
  have hload := hflagged _ hplain
  have hsaid : (Field.format.said? twoFiles (some "ci.toml")).map Toml.sort = some "string" := by
    decide +kernel
  obtain ⟨value, hvalue, hsort⟩ := Option.map_eq_some_iff.mp hsaid
  obtain ⟨-, -, hfields⟩ := hloaded _ hload
  have hformat : Toml.string "ast-par" = value := (hfields .format rfl).1 value hvalue hsort
  exact ⟨hload, hformat ▸ hvalue⟩

end Settings

end GrammarFile
