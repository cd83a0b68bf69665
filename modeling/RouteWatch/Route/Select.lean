import RouteWatch.Diff.LineSet
import RouteWatch.Route.Block

/-!
# Affected blocks

`changedBlocks` finds the blocks that a change of some lines affects, each with one of the
lines, and `removedBlocks` the blocks all of whose lines are gone.
-/

namespace RouteWatch

open RouteWatch.Diff (LineSet)

/-- A block with the line chosen in it so far. -/
abbrev Slot := Block × Option Int

/-- Gives a line to the first block that it lies in and that has no line yet. -/
def assign (line : Int) : List Slot → List Slot
  | [] => []
  | (b, some chosen) :: slots => (b, some chosen) :: assign line slots
  | (b, none) :: slots =>
    if b.contains line then (b, some line) :: slots else (b, none) :: assign line slots

/-- The candidate of a block that has a line. -/
def Slot.candidate? (s : Slot) : Option Candidate := s.2.map fun line ↦ ⟨s.1, line⟩

/-- The blocks that changed lines lie in, in order. The lines are given out in ascending order,
each to the first block with room for it. -/
def changedBlocks (blocks : List Block) (changed : LineSet) : List Candidate :=
  (changed.toList.foldl (fun slots line ↦ assign line slots) (blocks.map (·, none))).filterMap
    Slot.candidate?

/-- Every line from `n` up to `last` is in an ascending list that begins at `n` or later. -/
def coversFrom (n last : Int) : List Int → Bool
  | [] => last < n
  | m :: ms => last < n || (m == n && coversFrom (n + 1) last ms)

/-- Every line of the block is in the set. -/
def Block.within (b : Block) (lines : LineSet) : Bool :=
  coversFrom b.startLine b.endLine (lines.toList.dropWhile (· < b.startLine))

/-- The blocks all of whose lines are removed, each with its first line. -/
def removedBlocks (blocks : List Block) (removed : LineSet) : List Candidate :=
  (blocks.filter (·.within removed)).map fun b ↦ ⟨b, b.startLine⟩

end RouteWatch
