/-!
# Route blocks

A block is a stretch of lines of a file that declares one route, from its start line to the
line that closes it. A candidate is a block with the line of it that an annotation goes to.
-/

namespace RouteWatch

/-- How a block is closed. -/
inductive Closing where
  /-- By its first line. -/
  | singleLine
  /-- By a later line. -/
  | multiLine
  /-- Not at all: the file ends within the block. -/
  | incomplete
  deriving DecidableEq, Repr

/-- The declaration of a route: its lines, numbered from one, and their text. -/
structure Block where
  startLine : Int
  endLine : Int
  body : String
  closing : Closing
  deriving DecidableEq, Repr

/-- The line lies in the block. -/
def Block.contains (b : Block) (line : Int) : Bool := b.startLine ≤ line && line ≤ b.endLine

/-- Which lines lie in a block. -/
theorem Block.contains_iff {b : Block} {line : Int} :
    b.contains line = true ↔ b.startLine ≤ line ∧ line ≤ b.endLine := by
  rw [contains, Bool.and_eq_true, decide_eq_true_eq, decide_eq_true_eq]

/-- A block and the line that its annotation goes to. -/
structure Candidate where
  block : Block
  line : Int
  deriving DecidableEq, Repr

end RouteWatch
