import RouteWatch.Server.Review
import RouteWatch.Server.Settings

/-!
# Routing

`respond` answers a request to the server by its path and its method. A known path with slashes
after it is sent on to the path without them. A failure that no endpoint answers is an internal
error; where a request leads beyond what is modelled there is no answer.
-/

namespace RouteWatch.Server

/-- What the server does at a path for a method. -/
inductive Endpoint where
  | health
  | showSettings
  | changeSettings
  | preview
  | run
  deriving DecidableEq, Repr

/-- The endpoints with their paths and methods. -/
def endpoints : List (String × String × Endpoint) := [
    ("/api/review/preview", "POST", .preview), ("/api/review/run", "POST", .run),
    ("/api/config", "GET", .showSettings), ("/api/config", "PUT", .changeSettings),
    ("/health", "GET", .health)]

/-- The endpoints at a path. -/
def endpointsAt (path : String) : List (String × Endpoint) :=
  (endpoints.filter (·.1 = path)).map Prod.snd

/-- Reads the body of a request for an endpoint. -/
def withBody (r : Request) (next : Body → Act World Response) : Act World Response :=
  match Body.ofRequest r with
  | .ok body => next body
  | .error (.answered response) => return response
  | .error (.beyond limit) => Act.fail (.beyond (.json limit))

/-- The answer of an endpoint. -/
def Endpoint.serve (s : ConfigSource) (r : Request) : Endpoint → Act World Response
  | .health =>
    return .ok (.object [("status", .text "healthy"), ("service", .text "route-review-backend")])
  | .showSettings => Server.showSettings s
  | .changeSettings => withBody r (Server.changeSettings s)
  | .preview => withBody r (Server.preview s)
  | .run => withBody r (Server.run s)

/-- The answer for a path with slashes too many, where the path without them is known. -/
def redirect? (origin path query : String) : Option Response :=
  let bare := Text.stripEnd (· == '/') path
  if bare ≠ path && !(endpointsAt bare).isEmpty then
    some {
      status := 307
      payload := .text ""
      location := some (origin ++ bare ++ if query = "" then "" else "?" ++ query) }
  else none

/-- The answer to a request, failures aside. -/
def dispatch (s : ConfigSource) (r : Request) : Act World Response :=
  let (path, query) := r.pathAndQuery
  match endpointsAt path with
  | [] => return (redirect? r.origin path query).getD (.refusal 404 "Not Found")
  | (first, e) :: rest =>
    match ((first, e) :: rest).lookup (Text.asciiUpper r.method) with
    | some endpoint => endpoint.serve s r
    | none => return { Response.refusal 405 "Method Not Allowed" with allow := some first }

mutual

/-- A value with null for every number that is not finite. -/
def finiteJson : Json → Json
  | .real x => if x.isFinite then .real x else .null
  | .list vs => .list (finiteItems vs)
  | .object fields => .object (finiteFields fields)
  | v => v

/-- The same for the items of a list. -/
def finiteItems : List Json → List Json
  | [] => []
  | v :: vs => finiteJson v :: finiteItems vs

/-- The same for the fields of an object. -/
def finiteFields : List (String × Json) → List (String × Json)
  | [] => []
  | (name, v) :: fields => (name, finiteJson v) :: finiteFields fields

end

/-- A response as it is sent: without numbers that are not finite, and without a payload where
only the head is asked for. -/
def Response.sent (response : Response) (method : String) : Response :=
  if Text.asciiUpper method = "HEAD" then { response with payload := .text "" }
  else
    match response.payload with
    | .json v => { response with payload := .json (finiteJson v) }
    | .text _ => response

/-- The answer to a request. -/
def respond (s : ConfigSource) (r : Request) : Act World Response := do
  let response ← (dispatch s r).recover fun failure ↦
    match failure with
    | .beyond limit => Act.fail (.beyond limit)
    | _ => return .serverError
  return response.sent r.method

/-- What the server prints when it starts. -/
def startLines (s : ConfigSource) : List String :=
  ["[Backend] Starting Route Review Backend...",
    "[Backend] ConfigManager initialized (" ++ s.path.text ++ ")"]

/-- What the server prints when it stops. -/
def stopLine : String := "[Backend] Shutting down Route Review Backend..."

end RouteWatch.Server
