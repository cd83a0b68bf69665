import RouteWatch.Config.Settings
import RouteWatch.Files.Reading
import RouteWatch.Json.Reader
import RouteWatch.Text.Case
import RouteWatch.Text.Space

/-!
# Sources of the configuration

`ConfigSource.load` puts the configuration together. From the lowest to the highest rank its
sources are the defaults, the stored file, the environment, and what a caller overrides. The
number of the change comes from the payload of an event where file and environment give none.
-/

namespace RouteWatch

/-- The variables of an environment. -/
abbrev Environ := List (String × String)

/-- Where a configuration comes from: the file it is stored in, and an environment. -/
structure ConfigSource where
  path : Path
  environ : Environ

namespace ConfigSource

/-- The first part of the name of a variable that gives a setting. -/
def variablePart : String := "ROUTE_REVIEW_"

/-- The value of a variable; an empty one counts as absent. -/
def filled (environ : Environ) (name : String) : Option String :=
  (environ.lookup name).filter (· ≠ "")

/-- The file of the configuration in the home folder. -/
def homeFile (process : Environ) : String :=
  Text.stripEnd (· == '/') ((process.lookup "HOME").getD "") ++ "/.route_review/config.json"

/-- The source with the file that is given, else with the one that the environment names, else
with the one in the home folder of the process. -/
def ofFile (file : Option String) (environ process : Environ) : ConfigSource :=
  let name := (file.or (filled environ (variablePart ++ "CONFIG"))).getD (homeFile process)
  ⟨Path.ofText name, environ⟩

/-- What a file holds as JSON; `none` where it cannot be read, after a warning that opens with
the given words. -/
def readJson (path : Path) (shown warning : String) : Act Tree (Option Json) := do
  match (← Act.state).readText path shown with
  | .error (.file fault) =>
    Act.warn (warning ++ fault.message)
    return none
  | .error fault => Act.fail fault.failure
  | .ok text =>
    match Json.read text with
    | .ok v => return some v
    | .error (.flaw reason position) =>
      Act.warn (warning ++ Json.flawMessage reason text position)
      return none
    | .error (.tooManyDigits count) => Act.fail (.tooManyDigits count)
    | .error (.beyond limit) => Act.fail (.beyond (.json limit))

/-- The settings in the stored file. Names that are no settings are left out. -/
def fromFile (s : ConfigSource) : Act Tree Fields := do
  if !(← Act.state).has s.path then return []
  let name := s.path.text
  match ← readJson s.path name ("[Config] Error loading " ++ name ++ ": ") with
  | none => return []
  | some (.object fields) => return fields.filter fun field ↦ Config.keys.contains field.1
  | some _ =>
    Act.warn ("[Config] Ignoring " ++ name ++ ": expected a JSON object")
    return []

/-- The variables that count only where they are not empty, with their settings. -/
def forgeVariables : List (String × String) := [
    ("GITHUB_TOKEN", "github_token"), ("GITHUB_REPOSITORY", "repository"),
    ("GITHUB_API_URL", "api_url")]

/-- The parts of a text between commas, without blanks around them and without empty ones. -/
def commaList (s : String) : List String :=
  ((Text.pieces ',' s.toList).map fun cs ↦ Text.strip (String.ofList cs)).filter (· ≠ "")

/-- A setting as the text of a variable gives it. -/
def settingOf (key raw : String) : Json :=
  if key = "excluded_segments" then Json.ofList .text (commaList raw) else .text raw

/-- The variable of a setting. -/
def variableOf (key : String) : String := variablePart ++ Text.asciiUpper key

/-- The settings in an environment. -/
def fromEnviron (environ : Environ) : Fields :=
  let forge := forgeVariables.filterMap fun (name, key) ↦
    (filled environ name).map fun raw ↦ (key, Json.text raw)
  let own := Config.keys.filterMap fun key ↦
    (environ.lookup (variableOf key)).map fun raw ↦ (key, settingOf key raw)
  Fields.putAll forge own

/-- The number of the change that the payload of an event tells of. -/
def changeNumber : Json → Except Failure Json
  | .object event =>
    let pull := (Fields.get? event "pull_request").getD .null
    if pull.isBlank then .ok .null
    else
      match pull with
      | .object fields => .ok ((Fields.get? fields "number").getD .null)
      | _ => .error (.misfit .noProperty)
  | _ => .error (.misfit .noProperty)

/-- The number of the change in the payload of the event that the environment tells of. -/
def fromEvent (environ : Environ) : Act Tree Json := do
  match filled environ "GITHUB_EVENT_PATH" with
  | none => return .null
  | some name =>
    match ← readJson (Path.ofRawText name) name
        ("[Config] Cannot read event payload " ++ name ++ ": ") with
    | none => return .null
    | some event => Act.ofExcept (changeNumber event)

/-- The settings of file and environment, with the number of the change from the event where
they give none. -/
def collect (s : ConfigSource) : Act Tree Fields := do
  let fields := Fields.putAll (← s.fromFile) (fromEnviron s.environ)
  if (Fields.get? fields "pull_number").getD .null = .null then
    match ← fromEvent s.environ with
    | .null => return fields
    | number => return fields.put "pull_number" number
  else return fields

/-- The settings that a caller overrides; null overrides nothing. -/
def effective (overrides : Fields) : Fields := overrides.filter (·.2 ≠ .null)

/-- The configuration. -/
def load (s : ConfigSource) (overrides : Fields) : Act Tree Config := do
  let fields := Fields.putAll (← s.collect) (effective overrides)
  match Config.ofFields fields with
  | .ok config => return config
  | .error problems => Act.fail (.invalidConfiguration ⟨Config.recordName, problems⟩)

end ConfigSource

end RouteWatch
