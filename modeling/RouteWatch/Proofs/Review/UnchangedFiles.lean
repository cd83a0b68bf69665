import RouteWatch.Proofs.Diff.EqualTexts
import RouteWatch.Proofs.Review.Preview
import RouteWatch.Proofs.Route.ChosenLines
import RouteWatch.Proofs.Route.RemovedBlocks

/-!
# Files that have not changed

The diff of a file is empty exactly where the file has the same lines in both revisions. A review
that goes by such a diff finds the blocks of the file and nothing to say about them.
-/

namespace RouteWatch

open RouteWatch.Diff (FileDiff LineSet unified unified_eq_empty_iff_lines_eq)
open RouteWatch.Text (lines)

variable {blocks : List Block}

private theorem ofText_empty (path : String) :
    FileDiff.ofText "" path = .ok (.ofHunks path []) := rfl

/-- Where no line is changed no block is a candidate. -/
private theorem changedBlocks_of_empty {changed : LineSet} (hnone : changed.toList = []) :
    changedBlocks blocks changed = [] := by
  rw [changedBlocks, hnone, List.foldl_nil, List.filterMap_map, List.filterMap_eq_nil_iff]
  exact fun b _ ↦ rfl

/-- Where no line was removed no block was: each has a line. -/
private theorem removedBlocks_of_empty {removed : LineSet} (hnone : removed.toList = [])
    (hle : ∀ b ∈ blocks, b.startLine ≤ b.endLine) : removedBlocks blocks removed = [] := by
  apply List.eq_nil_iff_forall_not_mem.mpr
  intro c hc
  obtain ⟨hb, -, hall⟩ := mem_removedBlocks.mp hc
  have hstart : c.block.startLine ∈ removed.toList :=
    hall _ (Block.contains_iff.mpr ⟨Int.le_refl _, hle _ hb⟩)
  rw [hnone] at hstart
  exact absurd hstart List.not_mem_nil

/-- By a diff without hunks a review reports the blocks of a file and nothing else. -/
private theorem reportOn_empty {r : Reviewer} {path : String} {existing : List Annotation}
    {parentBlocks : List Block} (hle : ∀ b ∈ parentBlocks, b.startLine ≤ b.endLine) :
    r.reportOn path (.ofHunks path []) blocks
        (removedBlocks parentBlocks (FileDiff.ofHunks path []).removed) existing =
      ⟨path, blocks, [], [], [], 0, []⟩ := by
  have hnone : (LineSet.ofList []).toList = [] :=
    List.eq_nil_iff_forall_not_mem.mpr fun _ hn ↦ List.not_mem_nil (LineSet.mem_ofList.mp hn)
  have hchanged : changedBlocks blocks (FileDiff.ofHunks path []).changed = [] :=
    changedBlocks_of_empty hnone
  have hremoved : removedBlocks parentBlocks (FileDiff.ofHunks path []).removed = [] :=
    removedBlocks_of_empty hnone hle
  rw [Reviewer.reportOn, hchanged, hremoved]
  rfl

/-- With any number of lines of context the diff of a file is empty exactly where both revisions
have the same lines. There a review by that diff, whatever has been said before and whatever the
base revision that it is given, succeeds where both of its texts are scanned, and reports blocks,
but no candidate and nothing to say or left out. -/
theorem diff_empty_iff_unchanged (base head path : String) (context : Nat) :
    (unified base head path context = "" ↔ lines base = lines head) ∧
      (lines base = lines head →
        ∀ (r : Reviewer) (existing : List Annotation) (parent : Option String)
          (report : FileReport),
          r.preview path (some head) (unified base head path context) existing parent =
              .ok report ↔
            ∃ blocks parentBlocks, r.scanner.scan none (lines head) = .ok blocks ∧
              r.scanner.scan none (lines (parent.getD "")) = .ok parentBlocks ∧
              report = ⟨path, blocks, [], [], [], 0, []⟩) := by
  refine ⟨unified_eq_empty_iff_lines_eq, fun hlines r existing parent report ↦ ?_⟩
  rw [unified_eq_empty_iff_lines_eq.mpr hlines, Reviewer.preview_eq_ok_iff]
  constructor
  · rintro ⟨d, blocks, removed, hd, hblocks, hremoved, rfl⟩
    obtain rfl := Except.ok.inj ((ofText_empty path).symm.trans hd)
    obtain ⟨text, htext, hscan⟩ := Reviewer.scanText_eq_ok_iff.mp hblocks
    obtain rfl := Option.some.inj htext
    obtain ⟨parentBlocks, hparent, rfl⟩ := Reviewer.removedIn_eq_ok_iff.mp hremoved
    exact ⟨blocks, parentBlocks, hscan, hparent,
      reportOn_empty fun b hb ↦ (Scanner.within_of_scan hparent hb).2.1⟩
  · rintro ⟨blocks, parentBlocks, hscan, hparent, rfl⟩
    exact ⟨_, blocks, _, ofText_empty path, Reviewer.scanText_eq_ok_iff.mpr ⟨head, rfl, hscan⟩,
      Reviewer.removedIn_eq_ok_iff.mpr ⟨parentBlocks, hparent, rfl⟩,
      reportOn_empty fun b hb ↦ (Scanner.within_of_scan hparent hb).2.1⟩

/-- A route stands in a file from which only the last line end is taken. -/
theorem diff_empty_iff_unchanged_last_end :
    lines "const r = express.Router();\nr.a(1);\n" = lines "const r = express.Router();\nr.a(1);" ∧
      unified "const r = express.Router();\nr.a(1);\n" "const r = express.Router();\nr.a(1);"
        "r.js" (3 : Nat) = "" ∧
      Reviewer.ofDefaults.preview "r.js" (some "const r = express.Router();\nr.a(1);")
          (unified "const r = express.Router();\nr.a(1);\n" "const r = express.Router();\nr.a(1);"
            "r.js" (3 : Nat)) [] none =
        .ok ⟨"r.js", [⟨2, 2, "r.a(1);", .singleLine⟩], [], [], [], 0, []⟩ := by
  have hlines : lines "const r = express.Router();\nr.a(1);\n" =
      lines "const r = express.Router();\nr.a(1);" := by
    decide +kernel
  have hscan : (Reviewer.ofDefaults.scanner.scan none
      (lines "const r = express.Router();\nr.a(1);")).toOption =
        some [⟨2, 2, "r.a(1);", .singleLine⟩] := by
    decide +kernel
  obtain ⟨hempty, hreview⟩ := diff_empty_iff_unchanged "const r = express.Router();\nr.a(1);\n"
    "const r = express.Router();\nr.a(1);" "r.js" 3
  exact ⟨hlines, hempty.mpr hlines, (hreview hlines _ _ _ _).mpr
    ⟨_, [], except_eq_ok_of_toOption hscan, rfl, rfl⟩⟩

end RouteWatch
