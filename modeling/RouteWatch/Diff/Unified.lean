import RouteWatch.Diff.Edit
import RouteWatch.Text.Digit
import RouteWatch.Text.Lines

/-!
# Unified diffs

`unified` writes the difference of two texts as a unified diff: two lines with the file names,
then hunks, each a header with the ranges of both texts and the lines kept, removed and added.
Equal texts give the empty diff.
-/

namespace RouteWatch.Diff

open RouteWatch.Text (closedLines showInt)

/-- A position within a list of `size` items; a negative one counts from the end. -/
def clampTo (size : Nat) (i : Int) : Nat :=
  if i < 0 then (i + size).toNat else min i.toNat size

/-- The items of a list from one position up to another. -/
def slice {α : Type} (xs : List α) (start stop : Int) : List α :=
  let first := clampTo xs.length start
  (xs.drop first).take (clampTo xs.length stop - first)

/-- The range of a hunk in one text, from the positions of its first line and after its last:
the number of the first line and the number of lines, left out where it is one. An empty range
is given by the line before it. -/
def rangeText (start stop : Int) : String :=
  let size := stop - start
  if size = 1 then showInt (start + 1)
  else if size = 0 then showInt start ++ "," ++ showInt size
  else showInt (start + 1) ++ "," ++ showInt size

/-- A line of a hunk. -/
def hunkLine (mark line : String) : String := mark ++ line

/-- The lines of a hunk that an edit gives. -/
def editLines (a b : List String) (e : Edit) : List String :=
  match e.change with
  | .keep => (slice a e.left e.leftEnd).map (hunkLine " ")
  | .replace =>
    (slice a e.left e.leftEnd).map (hunkLine "-") ++ (slice b e.right e.rightEnd).map (hunkLine "+")
  | .delete => (slice a e.left e.leftEnd).map (hunkLine "-")
  | .insert => (slice b e.right e.rightEnd).map (hunkLine "+")

/-- The header of the hunk of a group. -/
def hunkHeader (first last : Edit) : String :=
  "@@ -" ++ rangeText first.left last.leftEnd ++ " +" ++ rangeText first.right last.rightEnd ++
    " @@\n"

/-- The lines of the hunk of a group. -/
def hunkLines (a b : List String) (group : List Edit) : List String :=
  match group.head?, group.getLast? with
  | some first, some last => hunkHeader first last :: group.flatMap (editLines a b)
  | _, _ => []

/-- The lines of the diff of two lists of lines. -/
def unifiedLines (a b : List String) (path : String) (context : Int) : List String :=
  match groups context a b with
  | [] => []
  | gs => ("--- a/" ++ path ++ "\n") :: ("+++ b/" ++ path ++ "\n") :: gs.flatMap (hunkLines a b)

/-- The unified diff of two texts of a file with `context` lines around each change. -/
def unified (base head path : String) (context : Int) : String :=
  String.join (unifiedLines (closedLines base) (closedLines head) path context)

end RouteWatch.Diff
