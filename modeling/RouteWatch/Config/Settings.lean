import RouteWatch.Validation.Check

/-!
# Settings

`Config` holds the settings of a review run. `Config.check` makes it from the fields of an
object, each of which may be left out, and `Config.toJson` gives the fields back.
-/

namespace RouteWatch

open RouteWatch.Validation

/-- The pattern of a line that declares a router. -/
def defaultDeclaration : String :=
  "(?:const|let|var)\\s+(\\w+)\\s*=\\s*express\\.Router\\(\\s*\\)"

/-- The comment that stands at a changed route. -/
def defaultComment : String :=
  "Route change detected. Please confirm that API documentation, " ++
    "permissions and clients are updated for this route."

/-- The settings of a review run. -/
structure Config where
  token : String := ""
  repository : String := ""
  apiUrl : String := "https://api.github.com"
  pullNumber : Option Int := none
  author : String := "github-actions[bot]"
  timeout : Int := 30
  maxRetries : Int := 3
  commentPath : Option String := none
  comment : String := defaultComment
  label : String := "route-change"
  delay : Binary64 := Binary64.ofDecimal false 1 0
  rootPath : String := "service"
  routesMarker : String := "routes"
  fileSuffix : String := ".js"
  excludedSegments : List String := ["lambda"]
  declaration : String := defaultDeclaration
  checkRemoved : Bool := false
  failFast : Bool := false

namespace Config

/-- The names of the settings, in order. -/
def keys : List String := [
    "github_token", "repository", "api_url", "pull_number", "annotation_author",
    "timeout_seconds", "max_retries", "comment_body_path", "default_comment_body", "label",
    "request_delay_seconds", "root_path", "routes_marker", "file_suffix", "excluded_segments",
    "declaration_pattern", "check_removed_routes", "fail_fast"]

/-- The settings that no source sets. -/
def initial : Config := {}

/-- The settings that the fields of an object give. -/
def ofFields (fields : Fields) : Checked Config :=
  Config.mk
    <$> fieldD fields "github_token" text initial.token
    <*> fieldD fields "repository" text initial.repository
    <*> fieldD fields "api_url" text initial.apiUrl
    <*> fieldD fields "pull_number" (optional int) initial.pullNumber
    <*> fieldD fields "annotation_author" text initial.author
    <*> fieldD fields "timeout_seconds" int initial.timeout
    <*> fieldD fields "max_retries" int initial.maxRetries
    <*> fieldD fields "comment_body_path" (optional text) initial.commentPath
    <*> fieldD fields "default_comment_body" text initial.comment
    <*> fieldD fields "label" text initial.label
    <*> fieldD fields "request_delay_seconds" real initial.delay
    <*> fieldD fields "root_path" text initial.rootPath
    <*> fieldD fields "routes_marker" text initial.routesMarker
    <*> fieldD fields "file_suffix" text initial.fileSuffix
    <*> fieldD fields "excluded_segments" (listOf .notTuple text) initial.excludedSegments
    <*> fieldD fields "declaration_pattern" text initial.declaration
    <*> fieldD fields "check_removed_routes" flag initial.checkRemoved
    <*> fieldD fields "fail_fast" flag initial.failFast

/-- The name under which messages speak of a configuration. -/
def recordName : String := "ReviewConfig"

/-- Makes settings from an object. -/
def check : Check Config := objectOf (.notRecord recordName) ofFields

/-- The settings as an object. -/
def toJson (c : Config) : Json :=
  .object [
    ("github_token", .text c.token), ("repository", .text c.repository),
    ("api_url", .text c.apiUrl), ("pull_number", Json.ofOption .int c.pullNumber),
    ("annotation_author", .text c.author), ("timeout_seconds", .int c.timeout),
    ("max_retries", .int c.maxRetries),
    ("comment_body_path", Json.ofOption .text c.commentPath),
    ("default_comment_body", .text c.comment), ("label", .text c.label),
    ("request_delay_seconds", .real c.delay), ("root_path", .text c.rootPath),
    ("routes_marker", .text c.routesMarker), ("file_suffix", .text c.fileSuffix),
    ("excluded_segments", Json.ofList .text c.excludedSegments),
    ("declaration_pattern", .text c.declaration), ("check_removed_routes", .bool c.checkRemoved),
    ("fail_fast", .bool c.failFast)]

end Config

end RouteWatch
