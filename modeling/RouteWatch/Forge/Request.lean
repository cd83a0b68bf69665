import RouteWatch.Json.Basic

/-!
# Requests and responses

What a client sends to a forge and what comes back: a response with a status, or a failure of
the network.
-/

namespace RouteWatch.Forge

/-- How a request acts on what its URL names. -/
inductive Method where
  | get
  | post
  deriving DecidableEq, Repr

/-- The word for a method in a request. -/
def Method.word : Method → String
  | .get => "GET"
  | .post => "POST"

/-- A request. -/
structure Request where
  method : Method
  url : String
  params : Option Fields
  payload : Option Json
  headers : Option Fields
  deriving DecidableEq

/-- What a response carries. -/
inductive Content where
  | text (text : String)
  | json (value : Json)
  deriving DecidableEq

/-- What comes back for a request. -/
inductive Reply where
  | response (status : Int) (content : Content)
  /-- The network failed; a timeout has an empty message. -/
  | broken (message : String)
  deriving DecidableEq

/-- The text of a response; one that carries a value has none. -/
def Content.textOf : Content → String
  | .text s => s
  | .json _ => ""

end RouteWatch.Forge
