import RouteWatch.Proofs.Annotation.Plan
import RouteWatch.Proofs.Review.Preview
import RouteWatch.Proofs.Route.ChosenLines
import RouteWatch.Proofs.Route.RemovedBlocks

/-!
# Where annotations are planned

A review plans comments at lines that its diff names, whatever the diff says: on the head revision
at the first changed lines of blocks, on the base revision at the first lines of blocks that were
removed, for each block at most one.
-/

namespace RouteWatch

open RouteWatch.Diff (FileDiff Hunk LineSet)

variable {path body : String} {hunks : List Hunk} {existing : List Annotation} {side : Side}
  {cs : List Candidate} {blocks : List Block} {lines : LineSet} {p : Draft}

/-- A comment on the head revision stands in one of the blocks and no other, at the first of the
changed lines in it. -/
def Draft.MarksChange (p : Draft) (blocks : List Block) (changed : LineSet) : Prop :=
  p.side = .right ∧ p.line ∈ changed ∧
    ∃ b, blocks.filter (·.contains p.line) = [b] ∧
      ∀ n ∈ changed, b.contains n = true → p.line ≤ n

/-- A comment on the base revision stands at the first line of one of the blocks, all of whose
lines were removed. -/
def Draft.MarksRemoval (p : Draft) (blocks : List Block) (removed : LineSet) : Prop :=
  p.side = .left ∧ p.line ∈ removed ∧
    ∃ b ∈ blocks, p.line = b.startLine ∧ ∀ n, b.contains n = true → n ∈ removed

/-- Two comments stand at different lines, which no block has in common. -/
def Draft.ApartIn (blocks : List Block) (p q : Draft) : Prop :=
  p.line ≠ q.line ∧ ∀ b ∈ blocks, b.contains p.line = true → b.contains q.line = false

/-! ### Plans for blocks that lie apart -/

/-- What is planned for candidates in the order of their lines is planned in this order. -/
theorem pairwise_drafts_plan (h : cs.Pairwise fun c e ↦ c.line < e.line) :
    (plan path body hunks existing side cs).drafts.Pairwise fun p q ↦ p.line < q.line :=
  List.Pairwise.sublist drafts_planFrom_sublist (List.pairwise_map.mpr h)

/-- What is planned stands apart where each line that is planned is the one chosen for every block
that it lies in. -/
theorem pairwise_apartIn {ds : List Draft} (chosen : Block → Int → Prop)
    (h : ds.Pairwise fun p q ↦ p.line < q.line)
    (hchosen : ∀ p ∈ ds, ∀ b ∈ blocks, b.contains p.line = true → chosen b p.line)
    (hone : ∀ b ∈ blocks, ∀ m n, chosen b m → chosen b n → m = n) :
    ds.Pairwise (Draft.ApartIn blocks) := by
  apply h.imp_of_mem
  intro p q hp hq hlt
  refine ⟨Int.ne_of_lt hlt, fun b hb hbp ↦ ?_⟩
  rw [← Bool.not_eq_true]
  intro hbq
  have := hone b hb _ _ (hchosen p hp b hb hbp) (hchosen q hq b hb hbq)
  omega

/-- A comment on the head revision is planned at the first changed line of a block. -/
theorem marksChange_of_mem_plan (h : blocks.Pairwise fun b c ↦ b.endLine < c.startLine)
    (hp : p ∈ (plan path body hunks existing .right (changedBlocks blocks lines)).drafts) :
    p.MarksChange blocks lines := by
  obtain ⟨c, hc, rfl⟩ := exists_of_mem_plan hp
  obtain ⟨hb, hline⟩ := (mem_changedBlocks h).mp hc
  obtain ⟨hmem, hin, hleast⟩ := Block.firstIn?_eq_some_iff.mp hline
  exact ⟨rfl, hmem, c.block, filter_contains_eq h hb hin, hleast⟩

/-- A comment on the base revision is planned at the first line of a block that was removed. -/
theorem marksRemoval_of_mem_plan (hle : ∀ b ∈ blocks, b.startLine ≤ b.endLine)
    (hp : p ∈ (plan path body hunks existing .left (removedBlocks blocks lines)).drafts) :
    p.MarksRemoval blocks lines := by
  obtain ⟨c, hc, rfl⟩ := exists_of_mem_plan hp
  obtain ⟨hb, hline, hall⟩ := mem_removedBlocks.mp hc
  have hin : c.block.contains c.line = true := by
    rw [Block.contains_iff, hline]
    exact ⟨Int.le_refl _, hle _ hb⟩
  exact ⟨rfl, hall _ hin, c.block, hb, hline, hall⟩

/-- No two comments on the head revision are planned for one block. -/
theorem apartIn_plan_changed (h : blocks.Pairwise fun b c ↦ b.endLine < c.startLine) :
    (plan path body hunks existing .right (changedBlocks blocks lines)).drafts.Pairwise
      (Draft.ApartIn blocks) := by
  apply pairwise_apartIn (fun b m ↦ b.firstIn? lines = some m)
    (pairwise_drafts_plan (pairwise_changedBlocks h))
  · intro p hp b hb hbp
    obtain ⟨c, hc, rfl⟩ := exists_of_mem_plan hp
    obtain ⟨hblock, hline⟩ := (mem_changedBlocks h).mp hc
    obtain rfl := eq_of_contains h hblock hb (Block.firstIn?_eq_some_iff.mp hline).2.1 hbp
    exact hline
  · intro b _ m n hm hn
    exact Option.some.inj (hm.symm.trans hn)

/-- No two comments on the base revision are planned for one block. -/
theorem apartIn_plan_removed (h : blocks.Pairwise fun b c ↦ b.endLine < c.startLine)
    (hle : ∀ b ∈ blocks, b.startLine ≤ b.endLine) :
    (plan path body hunks existing .left (removedBlocks blocks lines)).drafts.Pairwise
      (Draft.ApartIn blocks) := by
  apply pairwise_apartIn (fun b m ↦ b.startLine = m)
    (pairwise_drafts_plan (pairwise_removedBlocks h hle))
  · intro p hp b hb hbp
    obtain ⟨-, -, c, hc, hline, -⟩ := marksRemoval_of_mem_plan hle hp
    have hcp : c.contains p.line = true := by
      rw [Block.contains_iff, hline]
      exact ⟨Int.le_refl _, hle c hc⟩
    rw [eq_of_contains h hb hc hbp hcp, hline]
  · intro b _ m n hm hn
    exact hm.symm.trans hn

/-- What is planned says the body in the file, and stands at a line of the base revision. -/
theorem draft_of_mem_plan (hline : ∀ c ∈ cs, 1 ≤ c.line)
    (hp : p ∈ (plan path body hunks existing side cs).drafts) :
    p.path = path ∧ p.body = body ∧ ∃ n, p.baseLine = some n ∧ 1 ≤ n := by
  obtain ⟨c, hc, rfl⟩ := exists_of_mem_plan hp
  exact ⟨rfl, rfl, _, rfl, one_le_placeOf (hline c hc) side⟩

/-! ### Reviews -/

/-- Whatever the diff says, a review plans comments on the head revision and then comments on the
base revision. Each of the former stands within the file at the first changed line of a block, each
of the latter at the first line of a block that was removed, and no two of a side in one block. All
say the reviewer's comment in the file. A candidate is planned or left out. -/
theorem preview_planned_grounded (r : Reviewer) (path : String) (content : Option String)
    (diff : String) (existing : List Annotation) (base : Option String) (report : FileReport)
    (h : r.preview path content diff existing base = .ok report) :
    ∃ text d baseBlocks right left, content = some text ∧ FileDiff.ofText diff path = .ok d ∧
      r.scanner.scan none (Text.lines text) = .ok report.blocks ∧
      r.scanner.scan none (Text.lines (base.getD "")) = .ok baseBlocks ∧
      report.planned = right ++ left ∧
      (∀ p ∈ right, p.MarksChange report.blocks d.changed ∧
        1 ≤ p.line ∧ p.line ≤ (Text.lines text).length) ∧
      (∀ p ∈ left, p.MarksRemoval baseBlocks d.removed) ∧
      right.Pairwise (Draft.ApartIn report.blocks) ∧
      left.Pairwise (Draft.ApartIn baseBlocks) ∧
      (∀ p ∈ report.planned, p.path = path ∧ p.body = r.comment ∧
        ∃ n, p.baseLine = some n ∧ 1 ≤ n) ∧
      report.candidates.length + report.removed.length =
        report.planned.length + report.skipped := by
  obtain ⟨d, blocks, removed, hd, hblocks, hremoved, rfl⟩ := Reviewer.preview_eq_ok_iff.mp h
  obtain ⟨text, htext, hscan⟩ := Reviewer.scanText_eq_ok_iff.mp hblocks
  obtain ⟨baseBlocks, hbase, rfl⟩ := Reviewer.removedIn_eq_ok_iff.mp hremoved
  have hascending := Scanner.ascending_of_scan hscan
  have hascending' := Scanner.ascending_of_scan hbase
  have hle (b : Block) (hb : b ∈ baseBlocks) := (Scanner.within_of_scan hbase hb).2.1
  have hcandidate (c : Candidate) (hc : c ∈ changedBlocks blocks d.changed) :
      1 ≤ c.line ∧ c.line ≤ (Text.lines text).length := by
    obtain ⟨hb, hline⟩ := (mem_changedBlocks hascending).mp hc
    have hin := Block.contains_iff.mp (Block.firstIn?_eq_some_iff.mp hline).2.1
    have := Scanner.within_of_scan hscan hb
    omega
  have hremoval (c : Candidate) (hc : c ∈ removedBlocks baseBlocks d.removed) : 1 ≤ c.line := by
    obtain ⟨hb, hline, -⟩ := mem_removedBlocks.mp hc
    rw [hline]
    exact (Scanner.within_of_scan hbase hb).1
  refine ⟨text, d, baseBlocks, _, _, htext, hd, hscan, hbase, rfl, ?_, ?_,
    apartIn_plan_changed hascending, apartIn_plan_removed hascending' hle, ?_, ?_⟩
  · intro p hp
    refine ⟨marksChange_of_mem_plan hascending hp, ?_⟩
    obtain ⟨c, hc, rfl⟩ := exists_of_mem_plan hp
    exact hcandidate c hc
  · exact fun p hp ↦ marksRemoval_of_mem_plan hle hp
  · intro p hp
    rcases List.mem_append.mp hp with hp | hp
    · exact draft_of_mem_plan (fun c hc ↦ (hcandidate c hc).1) hp
    · exact draft_of_mem_plan hremoval hp
  · have hright := @length_plan path r.comment d.hunks existing .right
      (changedBlocks blocks d.changed)
    have hleft := @length_plan path r.comment d.hunks existing .left
      (removedBlocks baseBlocks d.removed)
    simp only [Reviewer.reportOn, List.length_append]
    omega

/-- A route is changed and the one after it is removed; the hunks of the diff overlap and stand in
no order. -/
theorem preview_planned_grounded_overlapping :
    ∃ report, Reviewer.ofDefaults.preview "r.js"
        (some "const router = express.Router();\nrouter.a(2);\n")
        "@@ -3 +2,0 @@\n@@ -2,2 +1,2 @@\n" []
        (some "const router = express.Router();\nrouter.a(1);\nrouter.b(1);\n") = .ok report ∧
      report.planned.map (fun p ↦ (p.side, p.line)) = [(.right, 2), (.left, 2), (.left, 3)] ∧
      ∀ p ∈ report.planned, p.path = "r.js" ∧ p.body = defaultComment := by
  have hchanged : (FileDiff.ofHunks "r.js" [⟨3, 2, 1, 0⟩, ⟨2, 1, 2, 2⟩]).changed =
      ⟨[1, 2], by decide⟩ := by
    ext n
    exact LineSet.mem_ofList
  have hremoved : (FileDiff.ofHunks "r.js" [⟨3, 2, 1, 0⟩, ⟨2, 1, 2, 2⟩]).removed =
      ⟨[2, 3], by decide⟩ := by
    ext n
    have hlist : n ∈ [3, 2, 3] ↔ n ∈ [2, 3] := by
      simp only [List.mem_cons, List.not_mem_nil, or_false]
      omega
    exact LineSet.mem_ofList.trans hlist
  have hhunks : (Diff.hunksOf "@@ -3 +2,0 @@\n@@ -2,2 +1,2 @@\n").toOption =
      some [⟨3, 2, 1, 0⟩, ⟨2, 1, 2, 2⟩] := by decide +kernel
  have hblocks : (Reviewer.ofDefaults.scanner.scan none
      (Text.lines "const router = express.Router();\nrouter.a(2);\n")).toOption =
        some [⟨2, 2, "router.a(2);", .singleLine⟩] := by decide +kernel
  have hbase : (Reviewer.ofDefaults.scanner.scan none (Text.lines
      ((some "const router = express.Router();\nrouter.a(1);\nrouter.b(1);\n").getD ""))).toOption =
        some [⟨2, 2, "router.a(1);", .singleLine⟩, ⟨3, 3, "router.b(1);", .singleLine⟩] := by
    decide +kernel
  have hok := @Reviewer.preview_eq_reportOn Reviewer.ofDefaults "r.js" _ _ [] _ _ _ _
    (congrArg (Except.map (FileDiff.ofHunks "r.js")) (except_eq_ok_of_toOption hhunks))
    (except_eq_ok_of_toOption hblocks) (except_eq_ok_of_toOption hbase)
  refine ⟨_, hok, ?_, fun p hp ↦ ?_⟩
  · simp only [Reviewer.reportOn]
    rw [hchanged, hremoved]
    rfl
  · obtain ⟨_, _, _, _, _, -, -, -, -, -, -, -, -, -, hall, -⟩ :=
      preview_planned_grounded _ _ _ _ _ _ _ hok
    exact ⟨(hall p hp).1, (hall p hp).2.1⟩

end RouteWatch
