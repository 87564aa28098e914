import GrammarFile.Files.Basic
import GrammarFile.Files.Path
import GrammarFile.Settings.Convert
import GrammarFile.Settings.Key
import GrammarFile.Toml.Reader

/-!
# Loading settings

Settings come from the defaults, from files in their order, and from overrides: what comes later wins,
and overrides win over files wherever they stand among the layers. `Settings.load` first reads the keys
of all overrides, then the files, and then converts what has come together.
-/

namespace GrammarFile

/-- Where settings come from, besides the defaults. -/
inductive Layer where
  /-- A file that has to be there. -/
  | file (path : String)
  /-- A file that may be missing. -/
  | optionalFile (path : String)
  /-- A value for a key. -/
  | override (key : String) (value : Setting.Plain)
  deriving DecidableEq, Inhabited

mutual

/-- A value of a TOML document as a value of settings. Dates and times are texts. -/
def Toml.toSetting (origin : String) : Toml → Setting
  | .string text => .plain (.string text) (some origin)
  | .integer n => .plain (.integer n) (some origin)
  | .float x => .plain (.float x) (some origin)
  | .boolean b => .plain (.boolean b) (some origin)
  | .moment text => .plain (.string text) (some origin)
  | .array items => .array (itemsToSettings origin items) (some origin)
  | .table entries => .table (entriesToSettings origin entries) (some origin)

/-- The items of an array as values of settings. -/
def itemsToSettings (origin : String) : List Toml → List Setting
  | [] => []
  | item :: rest => item.toSetting origin :: itemsToSettings origin rest

/-- The entries of a table as values of settings. -/
def entriesToSettings (origin : String) : List (String × Toml) → List (String × Setting)
  | [] => []
  | (name, value) :: rest => (name, value.toSetting origin) :: entriesToSettings origin rest

end

namespace Settings

/-- The path of the settings file that a path means: the path itself, or else the one with the extension
for settings files. -/
def findFile? (files : Files) (path : String) : Option String :=
  (path :: (Path.withExtension? "toml" path).toList).find? fun path => (files path).isFile

/-- The table of all settings after an entry of a settings file. A name that can be read as a key is
one. -/
def assignEntry (settings : Setting) (entry : String × Setting) : Setting :=
  match Key.read? entry.1 with
  | some key => settings.assignAt key entry.2
  | none => settings.assign entry.1 entry.2

/-- The table of all settings after a settings file. One that is not required counts only if it can
be read as a text. -/
def addFile (files : Files) (required : Bool) (path : String) (settings : Setting) :
    Except SettingsError Setting :=
  match findFile? files path with
  | none => if required then .error (.missingFile path) else .ok settings
  | some path =>
    match (files path).text with
    | .error e => if required then .error (.unreadableFile e) else .ok settings
    | .ok text =>
      let origin := Path.plain path
      match Toml.read text with
      | .error fault => .error (.malformedFile origin text fault)
      | .ok entries => .ok ((entriesToSettings origin entries).foldl assignEntry settings)

/-- The table of all settings after a layer, overrides apart. -/
def addLayer (files : Files) (settings : Setting) : Layer → Except SettingsError Setting
  | .file path => addFile files true path settings
  | .optionalFile path => addFile files false path settings
  | .override _ _ => .ok settings

/-- The overrides among layers, with their keys. -/
def overrides : List Layer → Except SettingsError (List (Key × Setting))
  | [] => .ok []
  | .override text value :: rest =>
    match Key.read? text with
    | none => .error (.malformedKey text)
    | some key => (overrides rest).map ((key, .plain value none) :: ·)
  | _ :: rest => overrides rest

/-- The settings that layers give. -/
def load (files : Files) (layers : List Layer) : Except SettingsError Settings := do
  let assignments ← overrides layers
  let settings ← layers.foldlM (addLayer files) default.toSetting
  ofSetting (assignments.foldl (fun settings (key, value) => settings.assignAt key value) settings)

end Settings

end GrammarFile
