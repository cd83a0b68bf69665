import RouteWatch.Action.Basic
import RouteWatch.Annotation.Basic
import RouteWatch.Config.Settings
import RouteWatch.Diff.Hunk
import RouteWatch.Route.Block

/-!
# Reading records

How the records that come from outside are made from JSON objects. Each has its fields in a
fixed order, which is the order of the problems with them.
-/

namespace RouteWatch.Record

open RouteWatch.Diff (Hunk)
open RouteWatch.Validation

/-- The sides of a diff by their names. -/
def side : Check Side := choice Side.choices

/-- The ways in which a block is closed, by their names. -/
def closing : Check Closing :=
  choice [("single-line", .singleLine), ("multi-line", .multiLine), ("incomplete", .incomplete)]

/-- An annotation by its fields. -/
def annotationOf (fields : Fields) : Checked Annotation :=
  Annotation.mk
    <$> field fields "file_path" text
    <*> fieldD fields "line" (optional int) none
    <*> fieldD fields "body" text ""
    <*> fieldD fields "author" (optional text) none
    <*> fieldD fields "side" side .right
    <*> fieldD fields "id" (optional int) none

/-- An annotation. -/
def annotationCheck : Check Annotation := objectOf (.notRecord "Annotation") annotationOf

/-- A draft of an annotation. -/
def draftCheck : Check Draft :=
  objectOf (.notRecord "AnnotationRequest") fun fields ↦
    Draft.mk
      <$> field fields "file_path" text
      <*> field fields "line" int
      <*> field fields "body" text
      <*> fieldD fields "side" side .right
      <*> fieldD fields "original_line" (optional int) none

/-- A hunk of a diff. -/
def hunkCheck : Check Hunk :=
  objectOf (.notRecord "DiffHunk") fun fields ↦
    Hunk.mk
      <$> field fields "original_start" int
      <*> field fields "new_start" int
      <*> fieldD fields "original_count" int 1
      <*> fieldD fields "new_count" int 1

/-- A route block. -/
def blockCheck : Check Block :=
  objectOf (.notRecord "RouteBlock") fun fields ↦
    Block.mk
      <$> field fields "start_line" int
      <*> field fields "end_line" int
      <*> field fields "body" text
      <*> field fields "kind" closing

/-- A candidate. -/
def candidateCheck : Check Candidate :=
  objectOf (.notRecord "CandidatePair") fun fields ↦
    Candidate.mk
      <$> field fields "block" blockCheck
      <*> field fields "selected_line" int

/-- What a check makes of a value, or the failure to make a record of the given name. -/
def make {α : Type} (record : String) (check : Check α) (value : Json) : Except Failure α :=
  match check value with
  | .ok a => .ok a
  | .error problems => .error (.invalid ⟨record, problems⟩)

end RouteWatch.Record
