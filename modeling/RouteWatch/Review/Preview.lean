import RouteWatch.Annotation.Plan
import RouteWatch.Config.Comment
import RouteWatch.Review.Report
import RouteWatch.Route.Scan
import RouteWatch.Route.Select

/-!
# Reviewing a file

`Reviewer.preview` reviews one file by its content and its diff: it scans for route blocks,
selects those that the diff affects and plans their annotations, all without a backend.
-/

namespace RouteWatch

/-- What a review goes by: the configuration, the scanner for its declarations, and the comment
of its annotations. -/
structure Reviewer where
  config : Config
  scanner : Scanner
  comment : String

namespace Reviewer

/-- The scanner for the declarations that a pattern describes. -/
def scannerFor (pattern : String) : Except Failure Scanner :=
  match Pattern.read pattern with
  | .ok p => .ok (.ofPattern p)
  | .error flaw => .error (.ofFlaw flaw)

/-- The reviewer of a configuration. -/
def ofConfig (config : Config) : Act Tree Reviewer := do
  let scanner ← Act.ofExcept (scannerFor config.declaration)
  let comment ← config.readComment
  return ⟨config, scanner, comment⟩

/-- What the diff of a file says about lines. -/
def readDiff (diff path : String) : Except Failure Diff.FileDiff :=
  match Diff.FileDiff.ofText diff path with
  | .ok d => .ok d
  | .error (.tooManyDigits count) => .error (.tooManyDigits count)
  | .error fault => .error (.trouble ⟨.parse, fault.message, some path⟩)

/-- The blocks in the lines of a file. -/
def scanLines (s : Scanner) (identifier : Option String) (lines : List String) :
    Except Failure (List Block) :=
  match s.scan identifier lines with
  | .ok blocks => .ok blocks
  | .error fault => .error (.group fault)

/-- The blocks in the content of a file, which may be missing. -/
def scanText (s : Scanner) (content : Option String) (path : Option String)
    (identifier : Option String) : Except Failure (List Block) :=
  match content with
  | some text => scanLines s identifier (Text.lines text)
  | none => .error (.trouble ⟨.read, "file content unavailable", path⟩)

/-- The candidates among the blocks of the base revision, where its content is given. -/
def removedIn (r : Reviewer) (path : String) (diff : Diff.FileDiff) (base : Option String) :
    Except Failure (List Candidate) :=
  match base with
  | none => .ok []
  | some text =>
    (scanText r.scanner (some text) (some path) none).map (removedBlocks · diff.removed)

/-- The review of a file by its content in the head revision and its diff, and by its content
in the base revision where removed routes are looked for too. -/
def preview (r : Reviewer) (path : String) (content : Option String) (diff : String)
    (existing : List Annotation) (base : Option String) : Except Failure FileReport := do
  let diff ← readDiff diff path
  let blocks ← scanText r.scanner content (some path) none
  let candidates := changedBlocks blocks diff.changed
  let removed ← r.removedIn path diff base
  let right := plan path r.comment diff.hunks existing .right candidates
  let left := plan path r.comment diff.hunks existing .left removed
  return {
    path, blocks, candidates, removed
    planned := right.drafts ++ left.drafts
    skipped := right.skipped + left.skipped
    createdIds := [] }

end Reviewer

end RouteWatch
