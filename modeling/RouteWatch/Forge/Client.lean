import RouteWatch.Config.Settings
import RouteWatch.Diff.Unified
import RouteWatch.Forge.Comment
import RouteWatch.Forge.Link
import RouteWatch.Forge.Retry
import RouteWatch.Review.Backend
import RouteWatch.Text.Percent
import RouteWatch.Text.Space

/-!
# The client of a forge

A `Client` speaks to the repository that a configuration names. What it reads is tried again
where that can help; what it writes is sent once. `Client.backend` is the backend that it gives
to a review run.
-/

namespace RouteWatch.Forge

open RouteWatch.Text (UrlPart percentEncode)

/-- A client for one repository. -/
structure Client where
  config : Config

namespace Client

/-- The client of a configuration, which has to name a repository. -/
def ofConfig (config : Config) : Except Failure Client :=
  if config.repository = "" then .error .noRepository else .ok ⟨config⟩

/-- The headers of every request of a session. -/
def sessionHeaders (c : Client) : Fields :=
  [("Accept", .text "application/vnd.github+json"),
    ("X-GitHub-Api-Version", .text "2022-11-28")] ++
  if c.config.token = "" then [] else [("Authorization", .text ("Bearer " ++ c.config.token))]

/-- Opens a session unless there is one. -/
def openSession (c : Client) : Act Link Unit := do
  let link ← Act.state
  if link.session = .closed then
    Act.emit (.sessionOpened c.sessionHeaders (some c.config.timeout))
    Act.setState { link with session := .owned }

/-- Closes the session if the client opened it. -/
def closeSession : Act Link Unit := do
  let link ← Act.state
  if link.session = .owned then
    Act.emit .sessionClosed
    Act.setState { link with session := .closed }

/-- An action within a session, which is closed however the action ends. -/
def within {α : Type} (c : Client) (a : Act Link α) : Act Link α := do
  c.openSession
  let answer ← a.attempt
  closeSession
  Act.ofExcept answer

/-- The URL of a place in the repository. -/
def url (c : Client) (place : String) : String :=
  Text.stripEnd (· == '/') c.config.apiUrl ++ "/repos/" ++ c.config.repository ++ "/" ++ place

/-- Reads the value at a URL. -/
def getJson (c : Client) (url : String) (params : Option Fields) : Act Link Json :=
  retry c.config.maxRetries do
    Act.ofExcept (← Link.request ⟨.get, url, params, none, none⟩).valueOf

/-- Sends a value to a URL. -/
def postJson (url : String) (payload : Json) : Act Link Json :=
  Act.recover
    (do Act.ofExcept (← Link.request ⟨.post, url, none, some payload, none⟩).valueOf)
    fun failure ↦
      match failure with
      | .network message =>
        Act.fail (.trouble ⟨.api none, "POST " ++ url ++ " failed: " ++ message, none⟩)
      | failure => Act.fail failure

/-- The number of items on a full page. -/
def pageSize : Nat := 100

/-- The items of a page: those of a list, the names in an object, the characters of a text. -/
def pageItems : Json → Except Failure (List Json)
  | .list vs => .ok vs
  | .object fields => .ok ((Fields.names fields).map .text)
  | .text s => .ok (s.toList.map fun c ↦ .text (String.singleton c))
  | _ => .error (.misfit .noParts)

/-- The items of the pages from a number on, up to the first page that is not full. Every page
takes a reply, so that `fuel` need not be more than their number and one. -/
def pagesFrom (c : Client) (url : String) (page : Nat) : (fuel : Nat) → Act Link (List Json)
  | 0 => return []
  | fuel + 1 => do
    let params := [("per_page", .int pageSize), ("page", .int page)]
    let batch ← Act.ofExcept (pageItems (← c.getJson url (some params)))
    if batch.length < pageSize then return batch
    return batch ++ (← pagesFrom c url (page + 1) fuel)

/-- The items of all pages at a URL. -/
def pages (c : Client) (url : String) : Act Link (List Json) := do
  c.pagesFrom url 1 ((← Act.state).replies.length + 1)

/-- The field of an object. -/
def fieldOf (v : Json) (name : String) : Except Failure Json :=
  match v with
  | .object fields =>
    match Fields.get? fields name with
    | some v => .ok v
    | none => .error (.misfit .noField)
  | _ => .error (.misfit .noParts)

/-- The value by which something fetched is found again: numbers that are equal are the same key,
false and true among them as zero and one; lists and objects are none. -/
def lookupKey (v : Token) : Except Failure Token :=
  match v with
  | .list _ | .object _ => .error (.misfit .noParts)
  | .bool b => .ok (.int (if b then 1 else 0))
  | .real x => .ok ((x.toInt?.map Json.int).getD v)
  | v => .ok v

/-- The revisions in the description of a change. -/
def revisionsOf (data : Json) : Except Failure Revisions := do
  let base ← fieldOf (← fieldOf data "base") "sha"
  let head ← fieldOf (← fieldOf data "head") "sha"
  return ⟨base, head⟩

/-- The revisions of a change, which are fetched once. -/
def revisions (c : Client) (change : Token) : Act Link Revisions := do
  let key ← Act.ofExcept (lookupKey change)
  match (← Act.state).revisions.lookup key with
  | some revisions => return revisions
  | none =>
    let data ← c.getJson (c.url ("pulls/" ++ change.plain)) none
    let revisions ← Act.ofExcept (revisionsOf data)
    let link ← Act.state
    Act.setState { link with revisions := (key, revisions) :: link.revisions }
    return revisions

/-- The names of the files among the items of a listing, without those that are removed. -/
def changedNames : List Json → Except Failure (List Token)
  | [] => .ok []
  | .object fields :: rest => do
    if fieldOrNull fields "status" = .text "removed" then changedNames rest
    else
      let name ← fieldOf (.object fields) "filename"
      return name :: (← changedNames rest)
  | _ :: _ => .error (.misfit .noProperty)

/-- The paths of the files that a change touches and does not remove. -/
def changedFiles (c : Client) (change : Token) : Act Link (List Token) := do
  let files ← c.pages (c.url ("pulls/" ++ change.plain ++ "/files"))
  Act.ofExcept (changedNames files)

/-- The URL of the content of a file. -/
def contentUrl (c : Client) (path : String) : String :=
  c.url ("contents/" ++ percentEncode .path path)

/-- Fetches the content of a file in a revision. -/
def fetchContent (c : Client) (path : String) (ref : Token) : Act Link String :=
  let request : Request :=
    ⟨.get, c.contentUrl path, some [("ref", ref)], none,
      some [("Accept", .text "application/vnd.github.raw+json")]⟩
  Act.recover
    (retry c.config.maxRetries do return (← Link.request request).textOf)
    fun failure ↦
      match failure with
      | .trouble ⟨.api (some 404), _, _⟩ =>
        Act.fail (.trouble ⟨.read, "not found at " ++ ref.plain, some path⟩)
      | failure => Act.fail failure

/-- The content of a file in a revision, which is fetched once. -/
def content (c : Client) (path : String) (ref : Token) : Act Link String := do
  let key ← Act.ofExcept (lookupKey ref)
  match (← Act.state).contents.lookup (path, key) with
  | some text => return text
  | none =>
    let text ← c.fetchContent path ref
    let link ← Act.state
    Act.setState { link with contents := ((path, key), text) :: link.contents }
    return text

/-- The content of a file in the base revision; a file that is not there is empty. -/
def baseContent (c : Client) (path : String) (ref : Token) : Act Link String :=
  (c.content path ref).recover fun failure ↦
    match failure with
    | .trouble ⟨.read, _, _⟩ => return ""
    | failure => Act.fail failure

/-- The diff of a file between two revisions. -/
def diff (c : Client) (path : String) (revisions : Revisions) : Act Link String := do
  let base ← c.baseContent path revisions.base
  let head ← c.content path revisions.head
  return Diff.unified base head path 0

/-- The annotations that stand at a change. -/
def annotations (c : Client) (change : Token) : Act Link (List Annotation) := do
  let comments ← c.pages (c.url ("pulls/" ++ change.plain ++ "/comments"))
  Act.ofExcept (comments.mapM annotationOf)

/-- Creates an annotation; trouble with it concerns the file of the draft. -/
def create (c : Client) (change : Token) (draft : Draft) : Act Link Token := do
  let revisions ← c.revisions change
  let payload : Json := .object [
    ("body", .text draft.body), ("commit_id", revisions.head), ("path", .text draft.path),
    ("line", .int draft.line), ("side", .text draft.side.name)]
  let data ←
    (postJson (c.url ("pulls/" ++ change.plain ++ "/comments")) payload).recover fun failure ↦
      match failure with
      | .trouble t => Act.fail (.trouble { t with path := some draft.path })
      | failure => Act.fail failure
  Act.ofExcept (fieldOf data "id")

/-- Requests changes with a comment. -/
def requestChanges (c : Client) (change : Token) (body : String) : Act Link Unit := do
  let payload : Json := .object [("body", .text body), ("event", .text "REQUEST_CHANGES")]
  let _ ← postJson (c.url ("pulls/" ++ change.plain ++ "/reviews")) payload
  Act.print ("[GitHubClient] Requested changes on #" ++ change.plain)

/-- The color of a label that the client creates. -/
def labelColor : String := "d93f0b"

/-- The URL of a label. -/
def labelUrl (c : Client) (name : String) : String :=
  c.url ("labels/" ++ percentEncode .segment name)

/-- Creates a label in the repository. -/
def createLabel (c : Client) (name : String) : Act Link Unit := do
  let payload : Json := .object [("name", .text name), ("color", .text labelColor)]
  let _ ← postJson (c.url "labels") payload
  Act.print ("[GitHubClient] Created label '" ++ name ++ "'")

/-- Makes sure that a change carries a label, which is created where there is none. -/
def ensureLabel (c : Client) (change : Token) (name : String) : Act Link Unit := do
  match ← (c.getJson (c.labelUrl name) none).attempt with
  | .ok _ => pure ()
  | .error (.trouble ⟨.api (some 404), _, _⟩) => c.createLabel name
  | .error failure => Act.fail failure
  let payload : Json := .object [("labels", .list [.text name])]
  let _ ← postJson (c.url ("issues/" ++ change.plain ++ "/labels")) payload

/-- What the client gives to a review run. -/
def backend (c : Client) : Backend Link where
  revisions := c.revisions
  changedFiles := c.changedFiles
  content := c.content
  diff := c.diff
  annotations := c.annotations
  create := c.create
  requestChanges := c.requestChanges
  ensureLabel := c.ensureLabel

end Client

end RouteWatch.Forge
