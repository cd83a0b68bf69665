import RouteWatch.Json.Basic

/-!
# Messages of the server

A request has a method, a target and perhaps a body with its type; a response has a status and
a JSON value or a text.
-/

namespace RouteWatch.Server

/-- What a client asks for. -/
structure Request where
  /-- The address of the server, as the client knows it. -/
  origin : String
  method : String
  /-- The path, and the query after a question mark. -/
  target : String
  /-- The type of the body, as its header gives it. -/
  contentType : String
  /-- The body; an empty one counts as absent. -/
  body : String
  deriving DecidableEq, Repr

/-- What a response carries. -/
inductive Payload where
  | json (value : Json)
  | text (text : String)
  deriving DecidableEq

/-- What a client is answered. -/
structure Response where
  status : Nat
  payload : Payload
  /-- Where else to ask. -/
  location : Option String := none
  /-- The method that the path allows. -/
  allow : Option String := none
  deriving DecidableEq

namespace Response

/-- The answer to a request that is served. -/
def ok (value : Json) : Response := { status := 200, payload := .json value }

/-- The answer to a request that is refused, with the reason. -/
def refusal (status : Nat) (detail : String) : Response :=
  { status, payload := .json (.object [("detail", .text detail)]) }

/-- The answer where the server fails. -/
def serverError : Response := { status := 500, payload := .text "Internal Server Error" }

end Response

/-- The path and the query of a target. -/
def Request.pathAndQuery (r : Request) : String × String :=
  let cs := r.target.toList
  (String.ofList (cs.takeWhile (· ≠ '?')), String.ofList ((cs.dropWhile (· ≠ '?')).drop 1))

end RouteWatch.Server
