/-
**Settings of the assembler command.**

The settings are the level, format and colour mode of the log and the limit of diagnostics. They are
read from a settings file over the defaults; a key that is not known is refused. `Settings.check?`
finds the first setting with a value that it cannot have.
-/

import PicaShader.Log.Encoding
import PicaShader.Settings.Toml
import PicaShader.Text.Quoted

namespace PicaShader

/-- The settings, as written. -/
structure Settings where
  level : Text := "warn"
  format : Text := "console"
  color : Text := "auto"
  maxErrors : Int := 0
deriving DecidableEq, Repr

/-- A setting with a value that it cannot have. -/
inductive SettingsFault where
  | unknownLevel (level : Text)
  | unknownFormat (format : Text)
  | unknownColor (color : Text)
  | negativeLimit (limit : Int)
deriving DecidableEq, Repr

namespace SettingsFault

/-- The words for a fault. -/
def message : SettingsFault → Text
  | unknownLevel level => "log.level: unrecognized level: " ++ Text.quoted level
  | unknownFormat format => "log.format: unknown format " ++ Text.quoted format
  | unknownColor color => "log.color: unknown mode " ++ Text.quoted color
  | negativeLimit limit =>
    "assembler.max_errors: must not be negative, got " ++ Numeral.signed limit

end SettingsFault

namespace Settings

/-- The formats of the log. -/
def formats : List Text := ["console", "json"]

/-- The colour modes of the log. -/
def colors : List Text := ["auto", "always", "never"]

/-- The first fault of settings. -/
def check? (settings : Settings) : Option SettingsFault :=
  if (LogLevel.ofName? settings.level).isNone then some (.unknownLevel settings.level)
  else if !formats.contains settings.format then some (.unknownFormat settings.format)
  else if !colors.contains settings.color then some (.unknownColor settings.color)
  else if settings.maxErrors < 0 then some (.negativeLimit settings.maxErrors)
  else none

/-- The known name that a key stands for: itself, or itself in lower case. -/
def keyIn? (names : List Text) (key : Text) : Option Text :=
  if names.contains key then some key
  else if names.contains (Text.lower key) then some (Text.lower key)
  else none

/-- The tables of a settings file. -/
def tables : List Text := ["log", "assembler"]

/-- The keys of a table. -/
def keysOf (table : Text) : List Text :=
  if table = Text.ofString "log" then ["level", "format", "color"] else ["max_errors"]

/-- The settings with the value of a known key, if the value has its type. -/
def set? (settings : Settings) (key : Text) : Toml.Value → Option Settings
  | .text value =>
    if key = Text.ofString "level" then some { settings with level := value }
    else if key = Text.ofString "format" then some { settings with format := value }
    else if key = Text.ofString "color" then some { settings with color := value }
    else none
  | .integer value =>
    if key = Text.ofString "max_errors" then some { settings with maxErrors := value } else none

/-- The settings after an entry of a settings file; a key or a type that does not fit is refused. A
header alone sets nothing, also if it has the name of a setting. -/
def withEntry? (settings : Settings) (entry : Toml.Entry) : Option Settings := do
  match entry.path with
  | [table] =>
    let _ ← keyIn? tables table
    if entry.value.isNone then some settings else none
  | [table, key] =>
    let table ← keyIn? tables table
    let key ← keyIn? (keysOf table) key
    match entry.value with
    | none => some settings
    | some value => settings.set? key value
  | _ => none

/-- The settings of a settings file, over the defaults. -/
def read? (text : Text) : Option Settings := do
  let entries ← Toml.read? text
  entries.foldlM withEntry? {}

/-- Whether log levels are coloured, on a terminal or elsewhere. -/
def isColored (settings : Settings) (terminal : Bool) : Bool :=
  if settings.color = Text.ofString "always" then true
  else if settings.color = Text.ofString "never" then false
  else terminal

/-- The logger of settings. -/
def logger (settings : Settings) (terminal : Bool) (timestamp : Text) : Logger where
  least := (LogLevel.ofName? settings.level).getD .info
  style :=
    if settings.format = Text.ofString "json" then .json timestamp
    else .console (settings.isColored terminal)

end Settings

end PicaShader
