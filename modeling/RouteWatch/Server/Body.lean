import RouteWatch.Json.Reader
import RouteWatch.Server.Message
import RouteWatch.Text.Case
import RouteWatch.Text.Lines
import RouteWatch.Text.Space
import RouteWatch.Validation.Check

/-!
# Bodies of requests

The body of a request is JSON when its type says so. `Body.checked` makes a record from a body,
or gives the response that tells what is wrong with it.
-/

namespace RouteWatch.Server

open RouteWatch.Validation

/-- What the body of a request is. -/
inductive Body where
  | absent
  | json (value : Json)
  /-- A body whose type is not JSON. -/
  | raw (text : String)

/-- The type says that a body is JSON; what follows a semicolon does not matter. -/
def isJsonType (contentType : String) : Bool :=
  let kind := Text.strip (String.ofList (contentType.toList.takeWhile (· ≠ ';')))
  match Text.pieces '/' (Text.asciiLower kind).toList with
  | [main, sub] =>
    main = "application".toList && (sub = "json".toList || "+json".toList.isSuffixOf sub)
  | _ => false

/-- A problem as a response shows it, its place within the body. -/
def detailOf (p : Problem) : Json := { p with place := .field "body" :: p.place }.toJson

/-- The response about problems with a body. -/
def problemsResponse (problems : List Problem) : Response :=
  { status := 422, payload := .json (.object [("detail", Json.ofList detailOf problems)]) }

/-- The response about a body that is no JSON from a position on. -/
def malformedResponse (position : Nat) : Response :=
  let detail : Json := .object [("type", .text "json_invalid"),
    ("loc", .list [.text "body", .int position]), ("msg", .text "JSON decode error")]
  { status := 422, payload := .json (.object [("detail", .list [detail])]) }

/-- A text without a byte order mark in front. -/
def withoutMark (text : String) : String :=
  match text.toList with
  | c :: cs => if c.toNat = 0xFEFF then String.ofList cs else text
  | [] => text

/-- What comes of a body that is not read: a response, or nothing that is modelled. -/
inductive Unread where
  | answered (response : Response)
  | beyond (limit : Json.Limit)

/-- The body of a request, or what comes of one that is not read. -/
def Body.ofRequest (r : Request) : Except Unread Body :=
  if r.body = "" then .ok .absent
  else if !isJsonType r.contentType then .ok (.raw r.body)
  else
    match Json.read (withoutMark r.body) with
    | .ok v => .ok (.json v)
    | .error (.flaw _ position) => .error (.answered (malformedResponse position))
    | .error (.tooManyDigits _) =>
      .error (.answered (.refusal 400 "There was an error parsing the body"))
    | .error (.beyond limit) => .error (.beyond limit)

mutual

/-- Every number in the value is finite. -/
def isFiniteJson : Json → Bool
  | .real x => x.isFinite
  | .list vs => areFinite vs
  | .object fields => haveFinite fields
  | _ => true

/-- Every number in the items is finite. -/
def areFinite : List Json → Bool
  | [] => true
  | v :: vs => isFiniteJson v && areFinite vs

/-- Every number in the fields is finite. -/
def haveFinite : List (String × Json) → Bool
  | [] => true
  | (_, v) :: fields => isFiniteJson v && haveFinite fields

end

/-- What a check makes of a body. -/
def Body.check {α : Type} (check : Fields → Checked α) : Body → Checked α
  | .absent => Checked.refuse .missing .null
  | .raw text => Checked.refuse .notBody (.text text)
  | .json v => objectOf .notBody check v

/-- The record in a body, or the response about it; that response fails where it would have to
show a number that is not finite. -/
def Body.checked {α : Type} (check : Fields → Checked α) (b : Body) : Except Response α :=
  match b.check check with
  | .ok a => .ok a
  | .error problems =>
    .error (if problems.all (isFiniteJson ·.input) then problemsResponse problems
      else .serverError)

end RouteWatch.Server
