import RouteWatch.Record.Reading
import RouteWatch.Review.Backend
import RouteWatch.Review.Preview
import RouteWatch.Route.File

/-!
# Review runs

`Reviewer.run` reviews every route file of a change, one after the other, and creates the
annotations that are planned. A file whose content cannot be read or whose diff cannot be parsed
is reported and left out, unless the configuration says to stop at it. After a run that created
annotations changes are requested and the change is labelled.
-/

namespace RouteWatch

variable {σ : Type}

/-- Creates the annotations of drafts in order, with a pause between two in the same file;
`previous` is the file of the last one. -/
def createAll (b : Backend σ) (change : Token) (delay : Seconds) (previous : Option String) :
    List Draft → Act σ (List Token)
  | [] => return []
  | d :: ds => do
    if previous = some d.path && delay.isPositive then Act.emit (.slept delay)
    let id ← b.create change d
    Act.print ("[Reconciler] Created annotation " ++ id.plain ++ " on " ++ d.path ++ ":" ++
      Text.showInt d.line)
    let ids ← createAll b change delay (some d.path) ds
    return id :: ids

namespace Reviewer

/-- The pause between two annotations in the same file. -/
def delay (r : Reviewer) : Seconds := .real r.config.delay

/-- The content of a file in the base revision; a file that is not there is empty. -/
def readBase (b : Backend σ) (path : String) (revisions : Revisions) : Act σ String :=
  (b.content path revisions.base).recover fun failure ↦
    match failure with
    | .trouble ⟨.read, _, _⟩ => return ""
    | _ => Act.fail failure

/-- Reads a file and its diff from the backend and reviews it. -/
def previewFrom (r : Reviewer) (b : Backend σ) (revisions : Revisions)
    (existing : List Annotation) (path : String) : Act σ FileReport := do
  let diff ← b.diff path revisions
  let content ← b.content path revisions.head
  let base ←
    if r.config.checkRemoved then some <$> readBase b path revisions else pure none
  Act.ofExcept (r.preview path (some content) diff existing base)

/-- The line about a file that was reviewed. -/
def fileLine (f : FileReport) : String :=
  "[ReviewRunner] " ++ f.path ++ ": " ++ toString f.blocks.length ++ " routes, " ++
    toString f.planned.length ++ " to annotate, " ++ toString f.skipped ++ " already annotated"

/-- Creates what is planned for a file, except in a dry run. -/
def annotate (r : Reviewer) (b : Backend σ) (change : Token) (report : RunReport)
    (file : FileReport) : Act σ RunReport := do
  Act.print (fileLine file)
  let ids ←
    if report.dryRun then pure []
    else createAll b change r.delay none file.planned
  return { report with
    files := report.files ++ [{ file with createdIds := ids }]
    created := report.created + ids.length }

/-- What becomes of a run when the review of a file fails. -/
def fileFailed (r : Reviewer) (report : RunReport) (path : String) (failure : Failure) :
    Act σ RunReport :=
  match failure with
  | .trouble t =>
    if t.concernsFile then do
      let t := { t with path := some (t.knownPath?.getD path) }
      Act.warn ("[ReviewRunner] " ++ t.text)
      if r.config.failFast then Act.fail (.trouble t)
      return { report with errors := report.errors ++ [⟨path, t.kind, t.message⟩] }
    else Act.fail failure
  | _ => Act.fail failure

/-- One more file of a run. -/
def reviewFile (r : Reviewer) (b : Backend σ) (change : Token) (revisions : Revisions)
    (existing : List Annotation) (report : RunReport) (path : String) : Act σ RunReport := do
  if !isRouteFile r.config path then return report
  let report := { report with considered := report.considered + 1 }
  match ← (r.previewFrom b revisions existing path).attempt with
  | .ok file => r.annotate b change report file
  | .error failure => r.fileFailed report path failure

/-- The files of a run in order; what is listed has to be a text. -/
def reviewFiles (r : Reviewer) (b : Backend σ) (change : Token) (revisions : Revisions)
    (existing : List Annotation) (report : RunReport) : List Token → Act σ RunReport
  | [] => return report
  | .text path :: rest => do
    let report ← r.reviewFile b change revisions existing report path
    r.reviewFiles b change revisions existing report rest
  | _ :: _ => Act.fail (.misfit .noProperty)

/-- Requests changes and labels the change after annotations were created. -/
def escalate (r : Reviewer) (b : Backend σ) (change : Token) (report : RunReport) :
    Act σ RunReport := do
  if report.created = 0 then return report
  b.requestChanges change r.comment
  b.ensureLabel change r.config.label
  return { report with escalated := true }

/-- The report at the start of a run. -/
def emptyReport (change : Token) (dryRun : Bool) : Except Failure RunReport :=
  Record.make "RunReport"
    (fun v ↦ match (Validation.int v).within (.field "change_id") with
      | .ok n => .ok ⟨n, dryRun, 0, [], [], 0, false⟩
      | .error problems => .error problems) change

/-- At the start of a run nothing has been done. -/
theorem eq_of_emptyReport {change : Token} {dryRun : Bool} {report : RunReport}
    (h : emptyReport change dryRun = .ok report) :
    ∃ n, report = ⟨n, dryRun, 0, [], [], 0, false⟩ := by
  unfold emptyReport Record.make at h
  dsimp only at h
  split at h
  next hcheck =>
    split at hcheck
    next n _ => exact ⟨n, by rw [← Except.ok.inj h, ← Except.ok.inj hcheck]⟩
    next => cases hcheck
  next => cases h

/-- Reviews every route file of a change. -/
def run (r : Reviewer) (b : Backend σ) (change : Token) (dryRun : Bool) : Act σ RunReport := do
  let report ← Act.ofExcept (emptyReport change dryRun)
  let revisions ← b.revisions change
  let files ← b.changedFiles change
  let existing := (← b.annotations change).filter (·.author = some r.config.author)
  Act.print ("[ReviewRunner] #" ++ change.plain ++ ": " ++ toString files.length ++
    " changed files, " ++ toString existing.length ++ " existing annotations")
  let report ← r.reviewFiles b change revisions existing report files
  r.escalate b change report

/-- A run with the backend that is given, if one is. -/
def runWith (r : Reviewer) (b : Option (Backend σ)) (change : Token) (dryRun : Bool) :
    Act σ RunReport :=
  match b with
  | some b => r.run b change dryRun
  | none => Act.fail .noBackend

end Reviewer

end RouteWatch
