import RouteWatch.Proofs.Annotation.Plan
import RouteWatch.Proofs.Diff.KeptLines
import RouteWatch.Proofs.Review.Preview
import RouteWatch.Proofs.Route.ChosenLines
import RouteWatch.Proofs.Route.RemovedBlocks

/-!
# Which deleted routes are reported

When the lines of a block are deleted, a review reports the blocks of the base revision whose
lines all count as removed. These are the lines that the diff names, and where a neighbour of the
block has lines in common with it a diff may name some of the neighbour's in place of the block's.
Lines that the head revision does not have are named in any case.
-/

namespace RouteWatch

open RouteWatch.Diff (FileDiff unified)
open RouteWatch.Text (IsLine digitLimit lines)

/-- The lines of a file without those of the block. -/
def Block.deletedFrom (b : Block) (ls : List String) : List String :=
  ls.take (b.startLine - 1).toNat ++ ls.drop b.endLine.toNat

/-- The report has a removed block with this text, and a comment on the base revision is planned at
its first line. -/
def FileReport.ReportsRemoval (report : FileReport) (body : String) : Prop :=
  ∃ c ∈ report.removed, c.block.body = body ∧
    ∃ p ∈ report.planned, p.side = .left ∧ p.line = c.block.startLine

variable {r : Reviewer} {s : Scanner} {path body : String} {d : FileDiff} {ls head : List String}
  {blocks baseBlocks : List Block} {b : Block}

/-- Without comments every block whose lines were all removed is reported, and no other. -/
theorem reportsRemoval_reportOn_iff
    (h : baseBlocks.Pairwise fun b c ↦ b.endLine < c.startLine)
    (hle : ∀ b ∈ baseBlocks, b.startLine ≤ b.endLine) :
    (r.reportOn path d blocks (removedBlocks baseBlocks d.removed) []).ReportsRemoval body ↔
      ∃ b ∈ baseBlocks, b.body = body ∧ ∀ n, b.contains n = true → n ∈ d.removed := by
  constructor
  · rintro ⟨c, hc, hbody, -⟩
    obtain ⟨hb, -, hall⟩ := mem_removedBlocks.mp hc
    exact ⟨c.block, hb, hbody, hall⟩
  · rintro ⟨b, hb, hbody, hall⟩
    have hc : ⟨b, b.startLine⟩ ∈ removedBlocks baseBlocks d.removed :=
      mem_removedBlocks.mpr ⟨hb, rfl, hall⟩
    refine ⟨_, hc, hbody, _, List.mem_append_right _
      ((draft_mem_plan_iff (pairwise_removedBlocks h hle) hc).mpr ⟨List.not_mem_nil, ?_⟩), rfl, rfl⟩
    exact fun e _ hlt ↦ Int.ne_of_lt hlt

theorem length_deletedFrom_le (h : b.startLine ≤ b.endLine) :
    (b.deletedFrom ls).length ≤ ls.length := by
  rw [Block.deletedFrom, List.length_append, List.length_take, List.length_drop]
  omega

/-- A scan that finds a block succeeds when the block is deleted, as the declaration stays. -/
theorem exists_scan_deletedFrom (h : s.scan none ls = .ok blocks) (hb : b ∈ blocks) :
    ∃ bs, s.scan none (b.deletedFrom ls) = .ok bs := by
  rcases Scanner.scan_cases h with ⟨d, identifier, hbinds, hscan⟩ | ⟨-, rfl⟩
  · have hdeclares : s.DeclaresFirst ls d identifier := hbinds
    obtain ⟨hd, hle, hlast⟩ := hscan.within b hb
    have hbefore : d ≤ (ls.take (b.startLine - 1).toNat).length := by
      rw [List.length_take]
      omega
    rw [← List.take_append_drop (b.startLine - 1).toNat ls,
      Scanner.declaresFirst_append_iff hbefore] at hdeclares
    exact Scanner.exists_scan_of_declaresFirst
      ((Scanner.declaresFirst_append_iff hbefore).mpr hdeclares)
  · exact absurd hb List.not_mem_nil

/-- The lines of a block that the head revision does not have were all removed. -/
theorem mem_removed_of_notMem_head (hd : d.Partitions ls head) (hfirst : 1 ≤ b.startLine)
    (hlast : b.endLine ≤ ls.length)
    (hnone : ∀ n l, b.contains n = true → IsLine ls n l → l ∉ head) :
    ∀ n, b.contains n = true → n ∈ d.removed := by
  intro n hn
  obtain ⟨hstart, hend⟩ := Block.contains_iff.mp hn
  have hk : (n - 1).toNat < ls.length := by omega
  have hl : IsLine ls n ls[(n - 1).toNat] :=
    ⟨(n - 1).toNat, by omega, List.getElem?_eq_getElem hk⟩
  exact Classical.byContradiction fun hkept ↦ hnone n _ hn hl (hd.mem_head hl hkept)

/-- A review of a file from which a block was deleted reports this block, or another one with the
same text, exactly where the lines of one of them all count as removed by the diff. They do where
the head revision has no line of the block. -/
theorem preview_reports_deleted_iff (r : Reviewer) (path base head : String) (blocks : List Block)
    (b : Block) (hpath : '\n' ∉ path.toList)
    (hlines : (lines base).length < Nat.pow 10 digitLimit)
    (hscan : r.scanner.scan none (lines base) = .ok blocks) (hb : b ∈ blocks)
    (hhead : lines head = b.deletedFrom (lines base)) :
    ∃ report d, r.preview path (some head) (unified base head path 0) [] (some base) = .ok report ∧
      FileDiff.ofText (unified base head path 0) path = .ok d ∧
      (report.ReportsRemoval b.body ↔
        ∃ c ∈ blocks, c.body = b.body ∧ ∀ n, c.contains n = true → n ∈ d.removed) ∧
      ((∀ n l, b.contains n = true → IsLine (lines base) n l → l ∉ lines head) →
        report.ReportsRemoval b.body) := by
  obtain ⟨hfirst, hle, hlast⟩ := Scanner.within_of_scan hscan hb
  obtain ⟨headBlocks, hheadBlocks⟩ := exists_scan_deletedFrom hscan hb
  rw [← hhead] at hheadBlocks
  have hshorter : (lines head).length ≤ (lines base).length := by
    rw [hhead]
    exact length_deletedFrom_le hle
  obtain ⟨d, hd⟩ : ∃ d, FileDiff.ofText (unified base head path 0) path = .ok d :=
    ⟨_, congrArg (Except.map (FileDiff.ofHunks path))
      (Diff.hunksOf_unified_of_lt hpath hlines (Nat.lt_of_le_of_lt hshorter hlines))⟩
  have hiff := @reportsRemoval_reportOn_iff r path b.body d headBlocks blocks
    (Scanner.ascending_of_scan hscan) fun c hc ↦ (Scanner.within_of_scan hscan hc).2.1
  refine ⟨_, d, Reviewer.preview_eq_reportOn hd hheadBlocks hscan, hd, hiff, fun hnone ↦ ?_⟩
  exact hiff.mpr ⟨b, hb, rfl, mem_removed_of_notMem_head
    (Diff.partitions_of_ofText_unified hpath hd) hfirst hlast hnone⟩

/-- Two routes that have no line in common. -/
def unlikeRoutes : String := "const r = express.Router();\nr.a();\nr.b(\n x);\n"

/-- The file without the second one. -/
def firstUnlike : String := "const r = express.Router();\nr.a();\n"

/-- A route of several lines is deleted of which no other route has a line. -/
theorem preview_reports_deleted_iff_unlike :
    '\n' ∉ "r.js".toList ∧ (lines unlikeRoutes).length < Nat.pow 10 digitLimit ∧
      ∃ blocks, Reviewer.ofDefaults.scanner.scan none (lines unlikeRoutes) = .ok blocks ∧
        ∃ b ∈ blocks, lines firstUnlike = b.deletedFrom (lines unlikeRoutes) ∧
          ∃ report, Reviewer.ofDefaults.preview "r.js" (some firstUnlike)
              (unified unlikeRoutes firstUnlike "r.js" 0) [] (some unlikeRoutes) = .ok report ∧
            report.ReportsRemoval b.body := by
  have hpath : '\n' ∉ "r.js".toList := by decide
  have hlines (k : Nat) (hk : k ≠ 0) : (lines unlikeRoutes).length < Nat.pow 10 k :=
    Nat.lt_of_lt_of_le (show _ < 10 by decide +kernel) (Nat.le_self_pow hk 10)
  replace hlines := hlines digitLimit (by decide)
  have hblocks : (Reviewer.ofDefaults.scanner.scan none (lines unlikeRoutes)).toOption =
      some [⟨2, 2, "r.a();", .singleLine⟩, ⟨3, 4, "r.b(\n x);", .multiLine⟩] := by
    decide +kernel
  have hscan := except_eq_ok_of_toOption hblocks
  have hb : (⟨3, 4, "r.b(\n x);", .multiLine⟩ : Block) ∈
      [⟨2, 2, "r.a();", .singleLine⟩, ⟨3, 4, "r.b(\n x);", .multiLine⟩] :=
    List.mem_of_getElem? (i := 1) rfl
  have hhead : lines firstUnlike =
      (⟨3, 4, "r.b(\n x);", .multiLine⟩ : Block).deletedFrom (lines unlikeRoutes) := by
    decide +kernel
  obtain ⟨report, -, hreport, -, -, hreports⟩ :=
    preview_reports_deleted_iff Reviewer.ofDefaults _ _ _ _ _ hpath hlines hscan hb hhead
  refine ⟨hpath, hlines, _, hscan, _, hb, hhead, report, hreport, hreports ?_⟩
  rintro n l hn ⟨k, rfl, hl⟩
  have hk : (3 : Int) ≤ k + 1 ∧ (k : Int) + 1 ≤ 4 := Block.contains_iff.mp hn
  obtain rfl | rfl : k = 2 ∨ k = 3 := by omega
  · obtain rfl : "r.b(" = l := Option.some.inj hl
    decide +kernel
  · obtain rfl : " x);" = l := Option.some.inj hl
    decide +kernel

/-- Two routes that end with the same line, and lines that belong to none. -/
def alikeRoutes : String := "const r = express.Router();\nr.a(\n);\nr.b(\n);\nx\ny\nz\n"

/-- The file without the second one. -/
def firstAlike : String := "const r = express.Router();\nr.a(\n);\nx\ny\nz\n"

/-- Of two routes that end with the same line the second one is deleted. The diff names the last
line of the first route and the first line of the second one, so that no route is reported. -/
theorem preview_reports_deleted_iff_alike :
    ∃ blocks b report,
      Reviewer.ofDefaults.scanner.scan none (lines alikeRoutes) = .ok blocks ∧ b ∈ blocks ∧
      lines firstAlike = b.deletedFrom (lines alikeRoutes) ∧
      Reviewer.ofDefaults.preview "r.js" (some firstAlike)
        (unified alikeRoutes firstAlike "r.js" 0) [] (some alikeRoutes) = .ok report ∧
      ¬report.ReportsRemoval b.body := by
  have hblocks : (Reviewer.ofDefaults.scanner.scan none (lines alikeRoutes)).toOption =
      some [⟨2, 3, "r.a(\n);", .multiLine⟩, ⟨4, 5, "r.b(\n);", .multiLine⟩] := by
    decide +kernel
  have hheadBlocks : (Reviewer.ofDefaults.scanner.scan none (lines firstAlike)).toOption =
      some [⟨2, 3, "r.a(\n);", .multiLine⟩] := by
    decide +kernel
  have hhunks : (Diff.hunksOf (unified alikeRoutes firstAlike "r.js" 0)).toOption =
      some [⟨3, 2, 2, 0⟩] := by
    decide +kernel
  have hscan := except_eq_ok_of_toOption hblocks
  have hpreview := @Reviewer.preview_eq_reportOn Reviewer.ofDefaults "r.js" _ (some alikeRoutes) []
    _ _ _ _ (congrArg (Except.map (FileDiff.ofHunks "r.js")) (except_eq_ok_of_toOption hhunks))
    (except_eq_ok_of_toOption hheadBlocks) hscan
  refine ⟨_, ⟨4, 5, "r.b(\n);", .multiLine⟩, _, hscan, List.mem_of_getElem? (i := 1) rfl,
    by decide +kernel, hpreview, fun hreports ↦ ?_⟩
  obtain ⟨b, hb, hbody, hall⟩ := (reportsRemoval_reportOn_iff (Scanner.ascending_of_scan hscan)
    fun c hc ↦ (Scanner.within_of_scan hscan hc).2.1).mp hreports
  have honly : ∀ c ∈ [(⟨2, 3, "r.a(\n);", .multiLine⟩ : Block), ⟨4, 5, "r.b(\n);", .multiLine⟩],
      c.body = "r.b(\n);" → c = ⟨4, 5, "r.b(\n);", .multiLine⟩ := by decide
  obtain rfl := honly b hb hbody
  have hlast : (5 : Int) ∈ [3, 4] := Diff.LineSet.mem_ofList.mp (hall 5 (by decide))
  exact absurd hlast (by decide)

end RouteWatch
