import RouteWatch.Annotation.Basic
import RouteWatch.Diff.Hunk
import RouteWatch.Route.Block

/-!
# Planning annotations

A plan turns candidates into drafts and leaves out those whose key an annotation or an earlier
draft already has. Lines of the head revision are compared by their places in the base
revision; a draft is still posted at the candidate's own line.
-/

namespace RouteWatch

open RouteWatch.Diff (Hunk anchorLine)

/-- The place in the base revision of a line on a side. -/
def placeOf (hunks : List Hunk) (line : Int) : Side → Int
  | .left => line
  | .right => anchorLine hunks line

/-- The key of an annotation in a file; one without a line has none. -/
def Annotation.key? (hunks : List Hunk) (path : String) (a : Annotation) :
    Option AnnotationKey :=
  if a.path = path then a.line.map fun line ↦ ⟨path, placeOf hunks line a.side, a.side⟩
  else none

/-- The draft at a candidate's line. -/
def Candidate.draft (path body : String) (hunks : List Hunk) (side : Side) (c : Candidate) :
    Draft :=
  ⟨path, c.line, body, side, some (placeOf hunks c.line side)⟩

/-- Drafts to create, and the number of candidates that were left out. -/
structure Plan where
  drafts : List Draft
  skipped : Nat
  deriving DecidableEq, Repr

/-- Keeps a draft unless its key has been seen, and marks the key as seen. -/
def planFrom (seen : List AnnotationKey) : List Draft → Plan
  | [] => ⟨[], 0⟩
  | d :: ds =>
    if seen.contains d.key then
      let rest := planFrom seen ds
      { rest with skipped := rest.skipped + 1 }
    else
      let rest := planFrom (d.key :: seen) ds
      { rest with drafts := d :: rest.drafts }

/-- The plan for the candidates of a file on a side. -/
def plan (path body : String) (hunks : List Hunk) (existing : List Annotation) (side : Side)
    (candidates : List Candidate) : Plan :=
  planFrom (existing.filterMap (·.key? hunks path)) (candidates.map (·.draft path body hunks side))

/-- Every draft is planned or left out. -/
theorem length_planFrom (seen : List AnnotationKey) (ds : List Draft) :
    (planFrom seen ds).drafts.length + (planFrom seen ds).skipped = ds.length := by
  induction ds generalizing seen with
  | nil => rfl
  | cons d ds ih =>
    simp only [planFrom]
    split
    · have := ih seen
      simp only [List.length_cons]
      omega
    · have := ih (d.key :: seen)
      simp only [List.length_cons]
      omega

end RouteWatch
