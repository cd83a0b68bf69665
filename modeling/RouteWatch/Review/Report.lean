import RouteWatch.Action.Event
import RouteWatch.Action.Failure
import RouteWatch.Route.Block

/-!
# Reports

What a review of a file found and did, and what a whole run did.
-/

namespace RouteWatch

/-- The outcome of a review of one file. -/
structure FileReport where
  path : String
  blocks : List Block
  candidates : List Candidate
  removed : List Candidate
  planned : List Draft
  skipped : Nat
  createdIds : List Token

/-- A file that could not be reviewed. -/
structure FileError where
  path : String
  kind : Trouble.Kind
  message : String
  deriving DecidableEq

/-- The outcome of a run over all files of a change. -/
structure RunReport where
  change : Int
  dryRun : Bool
  considered : Nat
  files : List FileReport
  errors : List FileError
  created : Nat
  escalated : Bool

/-- No file failed. -/
def RunReport.succeeded (r : RunReport) : Bool := r.errors.isEmpty

end RouteWatch
