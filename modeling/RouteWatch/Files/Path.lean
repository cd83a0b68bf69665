import RouteWatch.Text.Lines

/-!
# Paths

A path is a root, which may be empty, and the names below it. Empty names and the name `.`
vanish when a path is read; the name `..` stays. A root is one slash, or two where exactly two
stand in front.
-/

namespace RouteWatch

/-- A path: its root and the names below. -/
structure Path where
  root : String
  names : List String
  deriving DecidableEq, Repr

namespace Path

/-- The root that the slashes in front of a path stand for. -/
def rootOf (slashes : Nat) : String :=
  if slashes = 0 then "" else if slashes = 2 then "//" else "/"

/-- The path that a text names. -/
def ofText (text : String) : Path where
  root := rootOf (text.toList.takeWhile (· == '/')).length
  names := ((Text.pieces '/' text.toList).map String.ofList).filter fun name ↦
    name ≠ "" && name ≠ "."

/-- The path that a text names, where a slash at the end asks for a folder. -/
def ofRawText (text : String) : Path :=
  let p := ofText text
  if text.toList.getLast? = some '/' then { p with names := p.names ++ ["."] } else p

/-- The text of a path; the path without root and names is `.`. -/
def text (p : Path) : String :=
  if p.root = "" && p.names.isEmpty then "." else p.root ++ "/".intercalate p.names

/-- The root, where there is one, and the names. -/
def parts (p : Path) : List String := if p.root = "" then p.names else p.root :: p.names

/-- The path without its last name. -/
def parent (p : Path) : Path := { p with names := p.names.dropLast }

/-- A name of the path holds a NUL character. No file system has such a name. -/
def hasNul (p : Path) : Bool := p.names.any fun name ↦ name.toList.contains '\x00'

end Path

end RouteWatch
