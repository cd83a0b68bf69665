import RouteWatch.CommandLine.Run
import RouteWatch.Server.Body

/-!
# Serving reviews

A file can be reviewed without a forge, and a change of the configured repository can be
reviewed on its forge.
-/

namespace RouteWatch.Server

open RouteWatch.Validation

/-- A file to be reviewed. -/
structure PreviewOrder where
  path : String
  content : String
  diff : String
  base : Option String
  existing : List Annotation

/-- The order for a preview in the body of a request. -/
def previewOrder (fields : Fields) : Checked PreviewOrder :=
  PreviewOrder.mk
    <$> field fields "file_path" text
    <*> field fields "content" text
    <*> field fields "diff" text
    <*> fieldD fields "parent_content" (optional text) none
    <*> fieldD fields "existing" (listOf .notList (objectOf .notBody Record.annotationOf)) []

/-- A change to be reviewed. -/
structure RunOrder where
  pull : Option Int
  dryRun : Bool

/-- The order for a run in the body of a request. -/
def runOrder (fields : Fields) : Checked RunOrder :=
  RunOrder.mk
    <$> fieldD fields "pull_number" (optional int) none
    <*> fieldD fields "dry_run" flag false

/-- Goes on with the configuration; the request is refused where there is none. -/
def withConfig (s : ConfigSource) (next : Config → Act World Response) : Act World Response := do
  match ← (World.onTree (s.load [])).attempt with
  | .ok config => next config
  | .error failure =>
    if failure.blamesValue then return .refusal 500 failure.message else Act.fail failure

/-- The answer to an order for a preview. -/
def servePreview (config : Config) (order : PreviewOrder) : Act World Response := do
  let reviewer ← World.onTree (Reviewer.ofConfig config)
  match reviewer.preview order.path (some order.content) order.diff order.existing order.base with
  | .ok report => return .ok report.toJson
  | .error (.trouble t) => return .refusal 422 t.text
  | .error failure => Act.fail failure

/-- The answer to a run that failed. -/
def runFailed (failure : Failure) : Act World Response :=
  match failure with
  | .trouble t =>
    match t.kind with
    | .api _ => return .refusal 502 t.text
    | _ => return .refusal 422 t.text
  | _ => if failure.blamesValue then return .refusal 400 failure.message else Act.fail failure

/-- The change that an order names; zero names none. -/
def RunOrder.change? (order : RunOrder) (config : Config) : Option Int :=
  (order.pull.filter (· ≠ 0)).or config.pullNumber

/-- The answer to an order for a run. -/
def serveRun (config : Config) (order : RunOrder) : Act World Response := do
  match order.change? config with
  | none => return .refusal 400 "Pull request number is required"
  | some change =>
    match ← (reviewChange config change order.dryRun).attempt with
    | .ok report => return .ok report.toJson
    | .error failure => runFailed failure

/-- The answer to the request for a preview. -/
def preview (s : ConfigSource) (body : Body) : Act World Response :=
  withConfig s fun config ↦
    match body.checked previewOrder with
    | .ok order => servePreview config order
    | .error response => return response

/-- The answer to the request for a run. -/
def run (s : ConfigSource) (body : Body) : Act World Response :=
  withConfig s fun config ↦
    match body.checked runOrder with
    | .ok order => serveRun config order
    | .error response => return response

end RouteWatch.Server
