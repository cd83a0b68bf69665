/-!
# Common runs of two texts

`commonRuns` aligns two lists of lines: it takes the longest run of equal lines, then goes on
in the same way before it and after it. Of several longest runs the one that begins first in
the first text wins, then the one that begins first in the second. A run is started only from
lines that are not popular in the second text; equal lines around a run are added to it,
popular or not.
-/

namespace RouteWatch.Diff

/-- Lines that two texts have in common: `size` of them, from position `left` on in the first
text and from position `right` on in the second. -/
structure Run where
  left : Nat
  right : Nat
  size : Nat
  deriving DecidableEq, Repr

/-- A part of two texts: the positions from `left` up to `leftEnd` in the first and from
`right` up to `rightEnd` in the second. -/
structure Region where
  left : Nat
  leftEnd : Nat
  right : Nat
  rightEnd : Nat
  deriving DecidableEq, Repr

/-- Texts of at least this many lines have popular lines. -/
def popularFrom : Nat := 200

/-- A line that occurs `count` times in a text of `size` lines is popular there. -/
def isPopular (size count : Nat) : Bool := popularFrom ≤ size && size / 100 + 1 < count

/-- The positions of a line in a text, counted from `position`. -/
def positionsFrom (line : String) (position : Nat) : List String → List Nat
  | [] => []
  | l :: ls =>
    if l = line then position :: positionsFrom line (position + 1) ls
    else positionsFrom line (position + 1) ls

/-- The positions in a text of the lines equal to a given one, none where that is popular. -/
def anchorsIn (text : List String) (line : String) : List Nat :=
  let found := positionsFrom line 0 text
  if isPopular text.length found.length then [] else found

/-- The lengths of the runs that end in a row, by the position in the second text at which
they end. -/
abbrev Row := List (Nat × Nat)

/-- The length of the run that ends at a position, given the row before. -/
def runLength (before : Row) (j : Nat) : Nat :=
  match j with
  | 0 => 1
  | j + 1 => (before.lookup j).getD 0 + 1

/-- The row of a line of the first text, whose equals in the region are at the positions. -/
def nextRow (before : Row) (js : List Nat) : Row := js.map fun j ↦ (j, runLength before j)

/-- The better of a run and the one of `size` lines that ends at `(i, j)`: the longer one, the
run held where both have one length. -/
def better (best : Run) (i : Nat) (entry : Nat × Nat) : Run :=
  if best.size < entry.2 then ⟨i + 1 - entry.2, entry.1 + 1 - entry.2, entry.2⟩ else best

/-- The best run over the lines of the first text from `i` on, given what was found before. -/
def bestRun (region : Region) (i : Nat) (before : Row) (best : Run) : List (List Nat) → Run
  | [] => best
  | js :: rest =>
    let row := nextRow before (js.filter fun j ↦ region.right ≤ j && j < region.rightEnd)
    bestRun region (i + 1) row (row.foldl (fun best entry ↦ better best i entry) best) rest

/-- A run of `size` lines that begins at `(i, j)`, with the equal lines before it. -/
def extendBack (a b : Array String) (region : Region) : (i j size : Nat) → Run
  | i + 1, j + 1, size =>
    if region.left ≤ i ∧ region.right ≤ j ∧ a[i]? = b[j]? then
      extendBack a b region i j (size + 1)
    else ⟨i + 1, j + 1, size⟩
  | i, j, size => ⟨i, j, size⟩

/-- The size of a run at `(i, j)` of at least `size` lines with the equal lines after it, at
most `fuel` of them. -/
def extendForward (a b : Array String) (region : Region) (i j : Nat) : (fuel size : Nat) → Nat
  | 0, size => size
  | fuel + 1, size =>
    if i + size < region.leftEnd ∧ j + size < region.rightEnd ∧ a[i + size]? = b[j + size]? then
      extendForward a b region i j fuel (size + 1)
    else size

/-- Two texts and, for each line of the first, where it is looked for in the second. -/
structure Pairing where
  left : Array String
  right : Array String
  anchors : List (List Nat)

/-- The pairing of two texts. -/
def Pairing.ofLines (a b : List String) : Pairing := ⟨a.toArray, b.toArray, a.map (anchorsIn b)⟩

/-- The longest run in a region. -/
def Pairing.longest (p : Pairing) (region : Region) : Run :=
  let rows := (p.anchors.drop region.left).take (region.leftEnd - region.left)
  let best := bestRun region region.left [] ⟨region.left, region.right, 0⟩ rows
  let run := extendBack p.left p.right region best.left best.right best.size
  { run with
    size := extendForward p.left p.right region run.left run.right
      (region.leftEnd - run.left) run.size }

/-- The runs of a region in order. The region of each step has fewer lines of the first text
than the one before, and `fuel` bounds their number. -/
def Pairing.runs (p : Pairing) : (fuel : Nat) → Region → List Run
  | 0, _ => []
  | fuel + 1, region =>
    let run := p.longest region
    if run.size = 0 then []
    else
      p.runs fuel ⟨region.left, run.left, region.right, run.right⟩ ++ run ::
        p.runs fuel ⟨run.left + run.size, region.leftEnd, run.right + run.size, region.rightEnd⟩

/-- Runs in order, those that follow on each other made one; `held` comes before them. -/
def mergeFrom (held : Run) : List Run → List Run
  | [] => if held.size = 0 then [] else [held]
  | r :: rs =>
    if held.left + held.size = r.left ∧ held.right + held.size = r.right then
      mergeFrom { held with size := held.size + r.size } rs
    else if held.size = 0 then mergeFrom r rs
    else held :: mergeFrom r rs

/-- The runs that two texts have in common, in order and none next to another. -/
def commonRuns (a b : List String) : List Run :=
  let p := Pairing.ofLines a b
  mergeFrom ⟨0, 0, 0⟩ (p.runs (a.length + 1) ⟨0, a.length, 0, b.length⟩)

end RouteWatch.Diff
