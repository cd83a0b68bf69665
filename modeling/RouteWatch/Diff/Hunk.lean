import RouteWatch.Diff.LineSet
import RouteWatch.Text.Digit
import RouteWatch.Text.Lines
import RouteWatch.Text.Quoted

/-!
# Hunks

A diff describes each of its hunks by a header with two ranges of lines, one of the base
revision and one of the head revision. `Hunk.ofHeader` reads a header, `FileDiff.ofText` all
headers of a diff together with the lines that their ranges cover, and `baseLine?` carries a
line of the head revision back to the base revision.
-/

namespace RouteWatch.Diff

open RouteWatch.Text (digitLimit isDigit quoted readNat tooManyDigitsMessage)

/-- Two ranges of lines that take each other's place: where each begins and its length. -/
structure Hunk where
  baseStart : Int
  headStart : Int
  baseCount : Int
  headCount : Int
  deriving DecidableEq, Repr

/-- Why a line is no header of a hunk. -/
inductive HeaderFault where
  | malformed (line : String)
  | tooManyDigits (count : Nat)
  deriving DecidableEq, Repr

/-- The message about a line that is no header. -/
def HeaderFault.message : HeaderFault → String
  | .malformed line => "malformed hunk header: " ++ quoted line
  | .tooManyDigits count => tooManyDigitsMessage count

/-- What follows an expected text. -/
def after? : (expected : List Char) → List Char → Option (List Char)
  | [], cs => some cs
  | _ :: _, [] => none
  | e :: es, c :: cs => if c = e then after? es cs else none

/-- The digits at the start of a text, at least one, and what follows them. -/
def digits? (cs : List Char) : Option (List Char × List Char) :=
  let found := cs.takeWhile isDigit
  if found.isEmpty then none else some (found, cs.dropWhile isDigit)

/-- The digits of a range: those of its start and, after a comma, those of its length. -/
def range? (cs : List Char) : Option ((List Char × Option (List Char)) × List Char) := do
  let (start, cs) ← digits? cs
  match cs with
  | ',' :: cs => do
    let (count, cs) ← digits? cs
    return ((start, some count), cs)
  | cs => return ((start, none), cs)

/-- The digits of both ranges of a header. -/
def ranges? (cs : List Char) :
    Option ((List Char × Option (List Char)) × (List Char × Option (List Char))) := do
  let cs ← after? ['@', '@', ' ', '-'] cs
  let (base, cs) ← range? cs
  let cs ← after? [' ', '+'] cs
  let (head, cs) ← range? cs
  let _ ← after? [' ', '@', '@'] cs
  return (base, head)

/-- The number that some digits give. -/
def numberOf (ds : List Char) : Except HeaderFault Int :=
  if digitLimit < ds.length then .error (.tooManyDigits ds.length) else .ok (readNat ds)

/-- The length that some digits give; without digits it is one. -/
def countOf : Option (List Char) → Except HeaderFault Int
  | none => .ok 1
  | some ds => numberOf ds

/-- The hunk that a line is the header of. -/
def Hunk.ofHeader (line : String) : Except HeaderFault Hunk :=
  match ranges? line.toList with
  | none => .error (.malformed line)
  | some ((baseStart, baseCount), (headStart, headCount)) => do
    let baseStart ← numberOf baseStart
    let baseCount ← countOf baseCount
    let headStart ← numberOf headStart
    let headCount ← countOf headCount
    return ⟨baseStart, headStart, baseCount, headCount⟩

/-- The lines of a range. -/
def rangeLines (start count : Int) : List Int :=
  (List.range count.toNat).map fun (k : Nat) ↦ start + k

/-- The lines of the head revision in a hunk. -/
def Hunk.headLines (h : Hunk) : List Int := rangeLines h.headStart h.headCount

/-- The lines of the base revision in a hunk. -/
def Hunk.baseLines (h : Hunk) : List Int := rangeLines h.baseStart h.baseCount

/-- What the diff of a file says about lines: its hunks, the lines of the head revision that
are new and the lines of the base revision that are gone. -/
structure FileDiff where
  path : String
  hunks : List Hunk
  changed : LineSet
  removed : LineSet

/-- A line that has to be the header of a hunk. -/
def isHeader (line : String) : Bool := (after? ['@', '@'] line.toList).isSome

/-- The hunks whose headers stand in a diff. -/
def hunksOf (text : String) : Except HeaderFault (List Hunk) :=
  ((Text.split text).filter isHeader).mapM Hunk.ofHeader

/-- A file's diff by its hunks. -/
def FileDiff.ofHunks (path : String) (hunks : List Hunk) : FileDiff :=
  ⟨path, hunks, .ofList (hunks.flatMap Hunk.headLines), .ofList (hunks.flatMap Hunk.baseLines)⟩

/-- A file's diff by its text. -/
def FileDiff.ofText (text path : String) : Except HeaderFault FileDiff :=
  (hunksOf text).map (FileDiff.ofHunks path)

/-- The line of the base revision in place of a line of the head revision, by the last hunk
that begins at the line or before it; there is none before the first hunk. -/
def baseLine? (hunks : List Hunk) (line : Int) : Option Int :=
  (hunks.takeWhile fun h ↦ h.headStart ≤ line).getLast?.map fun h ↦
    line - h.headStart + h.baseStart

/-- Where a line of the head revision counts as standing in the base revision: at its own
number where no line is in its place. -/
def anchorLine (hunks : List Hunk) (line : Int) : Int :=
  match baseLine? hunks line with
  | some n => if n < 1 then line else n
  | none => line

/-- A line is in a range when it lies between its ends. -/
theorem mem_rangeLines {n start count : Int} :
    n ∈ rangeLines start count ↔ start ≤ n ∧ n < start + count := by
  simp only [rangeLines, List.mem_map, List.mem_range]
  constructor
  · rintro ⟨k, hk, rfl⟩
    omega
  · rintro ⟨h₁, h₂⟩
    exact ⟨(n - start).toNat, by omega, by omega⟩

end RouteWatch.Diff
