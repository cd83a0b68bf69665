import RouteWatch.Diff.Hunk
import RouteWatch.Review.Report

/-!
# Writing records

The JSON objects of the records of a review, each with all its fields in their order.
-/

namespace RouteWatch

/-- The name of a way to close a block. -/
def Closing.name : Closing → String
  | .singleLine => "single-line"
  | .multiLine => "multi-line"
  | .incomplete => "incomplete"

/-- A block as an object. -/
def Block.toJson (b : Block) : Json :=
  .object [("start_line", .int b.startLine), ("end_line", .int b.endLine),
    ("body", .text b.body), ("kind", .text b.closing.name)]

/-- A candidate as an object. -/
def Candidate.toJson (c : Candidate) : Json :=
  .object [("block", c.block.toJson), ("selected_line", .int c.line)]

/-- A hunk as an object. -/
def Diff.Hunk.toJson (h : Diff.Hunk) : Json :=
  .object [("original_start", .int h.baseStart), ("new_start", .int h.headStart),
    ("original_count", .int h.baseCount), ("new_count", .int h.headCount)]

/-- A file's diff as an object, its sets of lines ascending. -/
def Diff.FileDiff.toJson (d : Diff.FileDiff) : Json :=
  .object [("file_path", .text d.path), ("hunks", Json.ofList Diff.Hunk.toJson d.hunks),
    ("changed_lines", Json.ofList .int d.changed.toList),
    ("removed_lines", Json.ofList .int d.removed.toList)]

/-- An annotation as an object. -/
def Annotation.toJson (a : Annotation) : Json :=
  .object [("file_path", .text a.path), ("line", Json.ofOption .int a.line),
    ("body", .text a.body), ("author", Json.ofOption .text a.author),
    ("side", .text a.side.name), ("id", Json.ofOption .int a.id)]

/-- A draft as an object. -/
def Draft.toJson (d : Draft) : Json :=
  .object [("file_path", .text d.path), ("line", .int d.line), ("body", .text d.body),
    ("side", .text d.side.name), ("original_line", Json.ofOption .int d.baseLine)]

/-- The report on a file as an object. -/
def FileReport.toJson (r : FileReport) : Json :=
  .object [("file_path", .text r.path), ("blocks", Json.ofList Block.toJson r.blocks),
    ("candidates", Json.ofList Candidate.toJson r.candidates),
    ("removed_candidates", Json.ofList Candidate.toJson r.removed),
    ("planned", Json.ofList Draft.toJson r.planned), ("skipped_duplicates", .int r.skipped),
    ("created_ids", .list r.createdIds)]

/-- The failure of a file as an object. -/
def FileError.toJson (e : FileError) : Json :=
  .object [("file_path", .text e.path), ("kind", .text e.kind.name),
    ("message", .text e.message)]

/-- The report on a run as an object. -/
def RunReport.toJson (r : RunReport) : Json :=
  .object [("change_id", .int r.change), ("dry_run", .bool r.dryRun),
    ("files_considered", .int r.considered), ("files", Json.ofList FileReport.toJson r.files),
    ("errors", Json.ofList FileError.toJson r.errors), ("annotations_created", .int r.created),
    ("escalated", .bool r.escalated)]

end RouteWatch
