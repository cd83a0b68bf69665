import RouteWatch.Action.Basic
import RouteWatch.Text.Lines

/-!
# Reading text files

A text file is read as UTF-8, and each of its line ends becomes one line feed.
-/

namespace RouteWatch

/-- Why a text file could not be read. -/
inductive TextFault where
  | file (fault : FileFault)
  | undecodable (fault : Text.Utf8.Fault)
  /-- The path holds a NUL character. -/
  | nulPath
  deriving DecidableEq, Repr

/-- The failure that a fault is. -/
def TextFault.failure : TextFault → Failure
  | .file fault => .file fault
  | .undecodable fault => .undecodable fault
  | .nulPath => .nulPath

/-- The text of the file at a path; `shown` is the text of the path in a fault. -/
def Tree.readText (t : Tree) (p : Path) (shown : String) : Except TextFault String :=
  match t.read p shown with
  | .error fault => .error (if fault.cause = .nul then .nulPath else .file fault)
  | .ok bytes =>
    match Text.Utf8.decode bytes with
    | .error fault => .error (.undecodable fault)
    | .ok text => .ok (Text.universalNewlines text)

end RouteWatch
