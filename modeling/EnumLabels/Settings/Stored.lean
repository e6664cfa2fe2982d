import EnumLabels.Json.Reader
import EnumLabels.Json.Writer
import EnumLabels.Settings
import EnumLabels.Source
import EnumLabels.Yaml.Reader
import EnumLabels.Yaml.Writer

/-!
# Settings as text

Settings are stored as a mapping in JSON or YAML, with the keys in order. A settings file holds
YAML in UTF-8. A carriage return in it, alone or before a line feed, is read as a line feed.
-/

namespace EnumLabels.Settings

/-- The settings as JSON. -/
def toJson (s : Settings) : Except Error String :=
  match Json.text? s.toData with
  | some text => .ok text
  | none => .error .wrongType

/-- The settings that a JSON text gives. -/
def ofJson (text : String) : Except Error Settings :=
  match Json.data? text with
  | some d => ofData d
  | none => .error .malformedJson

/-- The settings as YAML. -/
def toYaml (s : Settings) : Except Error String :=
  match Yaml.text? .sorted s.toData with
  | some text => .ok text
  | none => .error .malformedYaml

/-- The settings that a YAML text gives. -/
def ofYaml (text : String) : Except Error Settings :=
  match Yaml.data text with
  | .ok d => ofData d
  | .error fault => .error (.ofReadFault fault)

/-- The text with line feeds for carriage returns. -/
def withLineFeeds : List Char → List Char
  | [] => []
  | c :: rest =>
    if c = '\r' then
      if rest.head? = some '\n' then withLineFeeds rest else '\n' :: withLineFeeds rest
    else c :: withLineFeeds rest

/-- The settings that a file gives. -/
def load (d : Directory) (path : String) : Except Error Settings :=
  if Directory.hasNul path then .error .nulInPath
  else
    match d.readText path with
    | .error (.notUtf8 fault) => .error (.undecodable fault)
    | .error fault => .error (.cannotOpen path fault)
    | .ok text => ofYaml (String.ofList (withLineFeeds text))

end EnumLabels.Settings
