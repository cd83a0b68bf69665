import RouteWatch.Files.Path
import RouteWatch.Text.Quoted
import RouteWatch.Text.Utf8

/-!
# A tree of files

A `Tree` holds the contents of files and the folders they are in, each under its location: the
names that lead to it from the top. A path is followed name by name, where every name before
the last has to be a folder; one that holds a NUL character leads nowhere. Reading and writing
refuse with a `FileFault`.
-/

namespace RouteWatch

/-- What stands at a location. -/
inductive Entry where
  | file (content : List UInt8)
  | folder
  deriving DecidableEq, Repr

/-- Why something cannot be done at a path. -/
inductive FileFault.Cause where
  | missing
  | exists
  | notFolder
  | isFolder
  /-- The path holds a NUL character. It is refused before the file system is asked. -/
  | nul
  deriving DecidableEq, Repr

/-- Something that cannot be done at a path. -/
structure FileFault where
  cause : FileFault.Cause
  path : String
  deriving DecidableEq, Repr

/-- The words of a cause, with its number where the file system gives one. -/
def FileFault.Cause.message : FileFault.Cause → String
  | .missing => "[Errno 2] No such file or directory"
  | .exists => "[Errno 17] File exists"
  | .notFolder => "[Errno 20] Not a directory"
  | .isFolder => "[Errno 21] Is a directory"
  | .nul => "embedded null byte"

/-- The message about a fault. -/
def FileFault.message (f : FileFault) : String :=
  if f.cause = .nul then f.cause.message else f.cause.message ++ ": " ++ Text.quoted f.path

/-- The names from the top to a place, last first. -/
abbrev Location := List String

/-- Files and folders by their locations. The top is always a folder. -/
structure Tree where
  entries : List (Location × Entry)
  deriving Repr

namespace Tree

/-- The tree of nothing but the top. -/
def empty : Tree := ⟨[]⟩

/-- What stands at a location. -/
def entryAt (t : Tree) (l : Location) : Option Entry :=
  if l.isEmpty then some .folder else t.entries.lookup l

/-- The tree with an entry at a location. -/
def setEntry (t : Tree) (l : Location) (e : Entry) : Tree :=
  ⟨(l, e) :: t.entries.filter (·.1 ≠ l)⟩

/-- Follows names from a location. -/
def follow (t : Tree) (l : Location) : List String → Except FileFault.Cause Location
  | [] => .ok l
  | name :: names =>
    match t.entryAt l with
    | none => .error .missing
    | some (.file _) => .error .notFolder
    | some .folder =>
      follow t (if name = "." then l else if name = ".." then l.tail else name :: l) names

/-- The location that a path leads to. -/
def locate (t : Tree) (p : Path) : Except FileFault.Cause Location :=
  if p.hasNul then .error .nul else t.follow (if p.root = "" then [] else [p.root]) p.names

/-- What stands at a path. -/
def at? (t : Tree) (p : Path) : Option Entry :=
  match t.locate p with
  | .ok l => t.entryAt l
  | .error _ => none

/-- Something stands at the path. -/
def has (t : Tree) (p : Path) : Bool := (t.at? p).isSome

/-- The content of the file at a path; `shown` is the text of the path in a fault. -/
def read (t : Tree) (p : Path) (shown : String) : Except FileFault (List UInt8) :=
  match t.locate p with
  | .error cause => .error ⟨cause, shown⟩
  | .ok l =>
    match t.entryAt l with
    | none => .error ⟨.missing, shown⟩
    | some .folder => .error ⟨.isFolder, shown⟩
    | some (.file content) => .ok content

/-- The tree with a folder made at a path. -/
def makeFolder (t : Tree) (p : Path) : Except FileFault Tree :=
  match t.locate p with
  | .error cause => .error ⟨cause, p.text⟩
  | .ok l =>
    match t.entryAt l with
    | none => .ok (t.setEntry l .folder)
    | some _ => .error ⟨.exists, p.text⟩

/-- The tree with a folder at a path, be it there already. -/
def ensureFolder (t : Tree) (p : Path) : Except FileFault Tree :=
  match t.makeFolder p with
  | .ok t => .ok t
  | .error fault => if t.at? p = some .folder then .ok t else .error fault

/-- The tree with a folder at a path and folders on the way there; `count` is the number of
names in the path. -/
def ensureFolders (t : Tree) (root : String) : (count : Nat) → List String →
    Except FileFault Tree
  | 0, names => t.ensureFolder ⟨root, names⟩
  | count + 1, names =>
    match t.ensureFolder ⟨root, names⟩ with
    | .ok t => .ok t
    | .error fault =>
      if fault.cause = .missing then
        match t.ensureFolders root count names.dropLast with
        | .ok t => t.ensureFolder ⟨root, names⟩
        | .error fault => .error fault
      else .error fault

/-- The tree with folders made down to a path. -/
def withFolders (t : Tree) (p : Path) : Except FileFault Tree :=
  t.ensureFolders p.root p.names.length p.names

/-- The tree with a content written to the file at a path. -/
def write (t : Tree) (p : Path) (content : List UInt8) : Except FileFault Tree :=
  match t.locate p with
  | .error cause => .error ⟨cause, p.text⟩
  | .ok l =>
    if t.entryAt l = some .folder then .error ⟨.isFolder, p.text⟩
    else .ok (t.setEntry l (.file content))

/-- What was set at a location stands there. -/
theorem entryAt_setEntry_self (t : Tree) {l : Location} (e : Entry) (h : l ≠ []) :
    (t.setEntry l e).entryAt l = some e := by
  cases l with
  | nil => exact absurd rfl h
  | cons name l => simp [entryAt, setEntry]

end Tree

end RouteWatch
