import RouteWatch.CommandLine.Run
import RouteWatch.Config.Store
import RouteWatch.Server.Body

/-!
# Serving the configuration

The configuration can be looked at, with its token masked, and the stored settings can be
changed.
-/

namespace RouteWatch.Server

open RouteWatch.Validation

/-- A secret of which no more than four characters at either end are shown, and none of a short
one. -/
def mask (secret : String) : String :=
  let cs := secret.toList
  let stars (n : Nat) : List Char := List.replicate n '*'
  if cs.length ≤ 8 then String.ofList (stars cs.length)
  else
    String.ofList (cs.take 4 ++ stars (cs.length - 8) ++ cs.drop (cs.length - 4))

/-- The configuration as it is shown. -/
def shownConfig (c : Config) : Json := { c with token := mask c.token }.toJson

/-- The settings that can be changed, each with what makes its value. -/
def changeable : List (String × Check Json) :=
  let asText : Check Json := fun v ↦ Json.text <$> text v
  let asFlag : Check Json := fun v ↦ Json.bool <$> flag v
  [("repository", asText), ("api_url", asText), ("annotation_author", asText),
    ("comment_body_path", asText), ("default_comment_body", asText), ("label", asText),
    ("request_delay_seconds", fun v ↦ Json.real <$> real v), ("root_path", asText),
    ("routes_marker", asText), ("file_suffix", asText),
    ("excluded_segments", fun v ↦ Json.ofList .text <$> listOf .notList text v),
    ("declaration_pattern", asText), ("check_removed_routes", asFlag), ("fail_fast", asFlag)]

/-- The settings among some that an object gives, in their order; null gives none. -/
def changesAmong (settings : List (String × Check Json)) (fields : Fields) : Checked Fields :=
  match settings with
  | [] => pure []
  | (name, check) :: rest =>
    (fun v changes ↦ match v with
      | some v => (name, v) :: changes
      | none => changes)
    <$> fieldD fields name (optional check) none
    <*> changesAmong rest fields

/-- The settings that the body of a request changes. -/
def changes (fields : Fields) : Checked Fields := changesAmong changeable fields

/-- The answer that shows the configuration. -/
def showSettings (s : ConfigSource) : Act World Response := do
  match ← (World.onTree (s.load [])).attempt with
  | .ok config => return .ok (shownConfig config)
  | .error failure =>
    if failure.blamesValue then return .refusal 500 failure.message else Act.fail failure

/-- The answer to changes of settings that could not be stored. -/
def notSaved (failure : Failure) : Act World Response :=
  match failure with
  | .notStored _ => return .refusal 500 failure.message
  | _ => if failure.blamesValue then return .refusal 400 failure.message else Act.fail failure

/-- The answer to changes of settings. -/
def changeSettings (s : ConfigSource) (body : Body) : Act World Response := do
  match body.checked changes with
  | .error response => return response
  | .ok overrides =>
    match ← (World.onTree (s.save overrides)).attempt with
    | .ok _ =>
      return .ok (.object
        [("status", .text "success"), ("message", .text "Configuration updated")])
    | .error failure => notSaved failure

end RouteWatch.Server
