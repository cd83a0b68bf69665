import RouteWatch.Annotation.Basic
import RouteWatch.Forge.Request
import RouteWatch.Number.Binary64

/-!
# Events

What an action does that can be seen from outside: lines printed and warnings, pauses, calls
of a backend, requests to a forge.
-/

namespace RouteWatch

/-- A length of time in seconds. -/
inductive Seconds where
  | whole (n : Int)
  | real (x : Binary64)
  deriving DecidableEq, Repr

/-- The time is longer than none. -/
def Seconds.isPositive : Seconds → Bool
  | .whole n => 0 < n
  | .real x => x.isPositive

/-- An identifier that came from outside and is passed on as it came. -/
abbrev Token := Json

/-- The two revisions of a change. -/
structure Revisions where
  base : Token
  head : Token
  deriving DecidableEq

/-- A call of a backend. -/
inductive Call where
  | revisions (change : Token)
  | changedFiles (change : Token)
  | content (path : String) (ref : Token)
  | diff (path : String) (revisions : Revisions)
  | annotations (change : Token)
  | create (change : Token) (draft : Draft)
  | requestChanges (change : Token) (body : String)
  | ensureLabel (change : Token) (name : String)
  deriving DecidableEq

/-- What can be seen of an action. -/
inductive Event where
  | printed (line : String)
  | warned (line : String)
  | slept (time : Seconds)
  | called (call : Call)
  | sessionOpened (headers : Fields) (timeout : Option Int)
  | requested (request : Forge.Request)
  | sessionClosed
  deriving DecidableEq

end RouteWatch
