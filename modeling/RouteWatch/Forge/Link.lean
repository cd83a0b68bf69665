import RouteWatch.Action.Basic

/-!
# The link to a forge

A `Link` is the state of a client: the replies that are still to come, whether a session is
open, and what has been fetched already. `send` sends one request over it.
-/

namespace RouteWatch.Forge

/-- The state of a session with a forge. -/
inductive Session where
  | closed
  /-- Opened by the client, which closes it again. -/
  | owned
  /-- Given to the client. -/
  | lent
  deriving DecidableEq, Repr

/-- The state of a client. -/
structure Link where
  /-- The replies to the requests that are still to be sent. -/
  replies : List Reply
  session : Session
  /-- The contents that have been read, by path and revision. -/
  contents : List ((String × Token) × String)
  /-- The revisions of changes that have been asked for. -/
  revisions : List (Token × Revisions)

namespace Link

/-- The state before anything was sent. -/
def fresh (replies : List Reply) (session : Session) : Link := ⟨replies, session, [], []⟩

/-- The reply to a request after the last one that was to come. -/
def noReply : Reply := .response 500 (.text "no response left")

/-- Sends a request and gives the reply. -/
def send (request : Request) : Act Link Reply := do
  Act.emit (.requested request)
  let link ← Act.state
  match link.replies with
  | [] => return noReply
  | reply :: replies =>
    Act.setState { link with replies }
    return reply

/-- Sends a request over an open session; a status of 300 or more is trouble. -/
def request (request : Request) : Act Link Content := do
  if (← Act.state).session = .closed then Act.fail .noSession
  match ← send request with
  | .broken message => Act.fail (.network message)
  | .response status content =>
    if status < 300 then return content
    let shown := Text.showInt status
    Act.warn ("[GitHubClient] " ++ request.method.word ++ " " ++ request.url ++ " failed (" ++
      shown ++ "): " ++ content.textOf)
    Act.fail (.trouble
      ⟨.api (some status), "GitHub API error (" ++ shown ++ "): " ++ content.textOf, none⟩)

end Link

/-- The value that a response carries; one that carries a text has none. -/
def Content.valueOf : Content → Except Failure Json
  | .json v => .ok v
  | .text _ => .error (.network "response is not JSON")

end RouteWatch.Forge
