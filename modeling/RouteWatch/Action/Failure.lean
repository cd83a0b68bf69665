import RouteWatch.Files.Tree
import RouteWatch.Json.Reader
import RouteWatch.Pattern.Match
import RouteWatch.Pattern.Reader
import RouteWatch.Text.Digit
import RouteWatch.Validation.Problem

/-!
# Failures

A `Failure` is the cause for which an action ends without a value. Among them `Trouble` is what
goes wrong in a review: content that cannot be read, a diff that cannot be parsed, a call that
a forge refuses.
-/

namespace RouteWatch

/-- What kind of trouble a review is in. -/
inductive Trouble.Kind where
  | general
  | read
  | parse
  /-- A call was refused, with the status of the response if there was one. -/
  | api (status : Option Int)
  deriving DecidableEq, Repr

/-- The name of a kind of trouble. -/
def Trouble.Kind.name : Trouble.Kind → String
  | .general => "review"
  | .read => "read"
  | .parse => "parse"
  | .api _ => "api"

/-- What goes wrong in a review, and the file it concerns. -/
structure Trouble where
  kind : Trouble.Kind
  message : String
  path : Option String
  deriving DecidableEq, Repr

/-- The file that trouble concerns, where one with a name is known. -/
def Trouble.knownPath? (t : Trouble) : Option String := t.path.filter (· ≠ "")

/-- The text about trouble. -/
def Trouble.text (t : Trouble) : String :=
  match t.knownPath? with
  | some path => t.kind.name ++ " error in " ++ path ++ ": " ++ t.message
  | none => t.kind.name ++ " error: " ++ t.message

/-- Why a value that came from outside cannot be used. -/
inductive Misfit where
  /-- An object lacks a field. -/
  | noField
  /-- A value is not of a kind that has parts. -/
  | noParts
  /-- A value is not of a kind that has the property asked for. -/
  | noProperty
  deriving DecidableEq, Repr

/-- What an action may meet that is beyond the limits of what is modelled. -/
inductive Limit where
  /-- A JSON text that may stand for a value and is not read. -/
  | json (limit : Json.Limit)
  /-- A pattern in a form that is not read. -/
  | pattern
  deriving DecidableEq, Repr

/-- Why an action ends without a value. -/
inductive Failure where
  | trouble (t : Trouble)
  /-- A record cannot be made from the values given for it. -/
  | invalid (i : Validation.Invalid)
  /-- The settings that were found are no configuration. -/
  | invalidConfiguration (i : Validation.Invalid)
  | noSide (value : Json)
  | noRepository
  | unknownKeys (names : List String)
  | tooManyDigits (count : Nat)
  | undecodable (fault : Text.Utf8.Fault)
  /-- A run needs a backend. -/
  | noBackend
  /-- A request needs an open session. -/
  | noSession
  /-- The configuration could not be stored. -/
  | notStored (fault : FileFault)
  | file (fault : FileFault)
  /-- A path holds a NUL character. -/
  | nulPath
  | badPattern (flaw : Pattern.Flaw)
  | group (fault : Pattern.GroupFault)
  | misfit (m : Misfit)
  /-- The network failed. -/
  | network (message : String)
  /-- What follows is not modelled. -/
  | beyond (limit : Limit)

/-- The message about a failure. -/
def Failure.message : Failure → String
  | .trouble t => t.text
  | .invalid i => i.message
  | .invalidConfiguration i => "Invalid configuration: " ++ i.message
  | .noSide value => value.literal ++ " is not a valid Side"
  | .noRepository => "GitHub repository not configured"
  | .unknownKeys names => "Unknown configuration keys: " ++ ", ".intercalate names
  | .tooManyDigits count => Text.tooManyDigitsMessage count
  | .undecodable fault => fault.message
  | .noBackend => "ReviewRunner.run requires a backend"
  | .noSession => "GitHubClient must be used as an async context manager"
  | .notStored fault => "Failed to save config: " ++ fault.message
  | .file fault => fault.message
  | .nulPath => FileFault.Cause.nul.message
  | .badPattern .tooManyRounds => "the repetition number is too large"
  | .badPattern _ => "invalid pattern"
  | .group _ => "no such group"
  | .misfit _ => "value of the wrong kind"
  | .network message => message
  | .beyond _ => "not modelled"

/-- The failure that a flaw of a pattern is. -/
def Failure.ofFlaw : Pattern.Flaw → Failure
  | .tooManyDigits count => .tooManyDigits count
  | .beyond => .beyond .pattern
  | flaw => .badPattern flaw

/-- A value that was given is at fault. -/
def Failure.blamesValue : Failure → Bool
  | .invalid _ | .invalidConfiguration _ | .noSide _ | .noRepository | .unknownKeys _
  | .tooManyDigits _ | .undecodable _ | .nulPath => true
  | _ => false

/-- The trouble that a failure is, if it is one. -/
def Failure.trouble? : Failure → Option Trouble
  | .trouble t => some t
  | _ => none

/-- Trouble with content that cannot be read or a diff that cannot be parsed concerns one file
and no more. -/
def Trouble.concernsFile (t : Trouble) : Bool := t.kind = .read || t.kind = .parse

end RouteWatch
