import RouteWatch.Diff.Unified
import RouteWatch.Review.Backend

/-!
# A backend in memory

The change of this backend is a list of files with their contents in both revisions. Every call
is noted before it does anything, and rules say which calls fail.
-/

namespace RouteWatch

/-- A file of a change; a content that is missing cannot be read. -/
structure ChangedFile where
  path : String
  base : Option String
  head : Option String

/-- The methods of a backend. -/
inductive Call.Method where
  | revisions
  | changedFiles
  | content
  | diff
  | annotations
  | create
  | requestChanges
  | ensureLabel
  deriving DecidableEq, Repr

/-- The method that a call calls. -/
def Call.method : Call → Call.Method
  | .revisions _ => .revisions
  | .changedFiles _ => .changedFiles
  | .content _ _ => .content
  | .diff _ _ => .diff
  | .annotations _ => .annotations
  | .create _ _ => .create
  | .requestChanges _ _ => .requestChanges
  | .ensureLabel _ _ => .ensureLabel

/-- A rule that makes calls of a method fail: all of them, or the one of the given number,
counted from one. -/
structure FaultRule where
  method : Call.Method
  number : Option Nat
  trouble : Trouble

/-- The rule makes the method's call of the given number fail. -/
def FaultRule.covers (rule : FaultRule) (method : Call.Method) (number : Nat) : Bool :=
  rule.method = method && (rule.number.isNone || rule.number = some number)

/-- The state of the backend. -/
structure Memory where
  files : List ChangedFile
  /-- Diffs that stand in for those of the contents. -/
  diffs : List (String × String)
  annotations : List Annotation
  /-- The author of the annotations that are created. -/
  author : String
  rules : List FaultRule
  /-- The methods called so far, last first. -/
  calls : List Call.Method

namespace Memory

/-- The name of the base revision. -/
def baseRef : String := "base-sha"

/-- The name of the head revision. -/
def headRef : String := "head-sha"

/-- The file of a path. -/
def file? (m : Memory) (path : String) : Option ChangedFile := m.files.find? (·.path = path)

/-- The content of a file in a revision. -/
def content? (m : Memory) (path : String) (ref : Token) : Option String :=
  (m.file? path).bind fun file ↦ if ref = .text baseRef then file.base else file.head

/-- The diff of a file. -/
def diffOf (m : Memory) (path : String) : String :=
  match m.diffs.lookup path with
  | some text => text
  | none =>
    let file := m.file? path
    let content (side : ChangedFile → Option String) : String := (file.bind side).getD ""
    Diff.unified (content ChangedFile.base) (content ChangedFile.head) path 0

/-- Notes a call, and fails where a rule says so. -/
def note (call : Call) : Act Memory Unit := do
  Act.emit (.called call)
  let m ← Act.state
  let calls := call.method :: m.calls
  Act.setState { m with calls }
  let number := calls.count call.method
  match m.rules.find? fun rule ↦ rule.covers call.method number with
  | some rule => Act.fail (.trouble rule.trouble)
  | none => return ()

/-- Adds the annotation of a draft and gives its number. -/
def store (draft : Draft) : Act Memory Token := do
  let m ← Act.state
  let id : Int := m.annotations.length + 1
  let added : Annotation :=
    ⟨draft.path, some draft.line, draft.body, some m.author, draft.side, some id⟩
  Act.setState { m with annotations := m.annotations ++ [added] }
  return .int id

/-- Reads the content of a file. -/
def readContent (path : String) (ref : Token) : Act Memory String := do
  match (← Act.state).content? path ref with
  | some content => return content
  | none => Act.fail (.trouble ⟨.read, "not found at " ++ ref.plain, some path⟩)

/-- The backend. -/
def backend : Backend Memory where
  revisions change := do
    note (.revisions change)
    return ⟨.text baseRef, .text headRef⟩
  changedFiles change := do
    note (.changedFiles change)
    return (← Act.state).files.map fun file ↦ .text file.path
  content path ref := do
    note (.content path ref)
    readContent path ref
  diff path revisions := do
    note (.diff path revisions)
    return (← Act.state).diffOf path
  annotations change := do
    note (.annotations change)
    return (← Act.state).annotations
  create change draft := do
    note (.create change draft)
    store draft
  requestChanges change body := note (.requestChanges change body)
  ensureLabel change name := note (.ensureLabel change name)

/-- The state with a file's contents replaced, or with the file added at the end. -/
def setFile (m : Memory) (file : ChangedFile) : Memory :=
  if (m.file? file.path).isSome then
    { m with files := m.files.map fun f ↦ if f.path = file.path then file else f }
  else { m with files := m.files ++ [file] }

/-- The state without a file. -/
def dropFile (m : Memory) (path : String) : Memory :=
  { m with files := m.files.filter (·.path ≠ path) }

/-- The state with one more annotation. -/
def add (m : Memory) (a : Annotation) : Memory :=
  { m with annotations := m.annotations ++ [a] }

end Memory

end RouteWatch
