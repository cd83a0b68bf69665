import RouteWatch.Proofs.Annotation.Plan
import RouteWatch.Proofs.Diff.Anchor
import RouteWatch.Proofs.Review.Preview
import RouteWatch.Proofs.Route.ChosenLines

/-!
# Which affected blocks are annotated

A review plans an annotation for a block that changed lines lie in, unless the first of these
lines counts as standing where another annotation of the head revision stands. As changed lines
of different hunks may count as standing at one place, a block may go without an annotation.
-/

namespace RouteWatch

open RouteWatch.Diff (FileDiff Hunk anchorLine)

/-- A comment on the head revision of a file stands at the line. -/
def IsCommented (existing : List Annotation) (path : String) (line : Int) : Prop :=
  ∃ a ∈ existing, a.path = path ∧ a.side = .right ∧ a.line = some line

/-- A comment on the head revision stands within the block or is planned there. -/
def FileReport.Annotates (report : FileReport) (existing : List Annotation) (b : Block) : Prop :=
  (∃ n, IsCommented existing report.path n ∧ b.contains n = true) ∨
    ∃ p ∈ report.planned, p.path = report.path ∧ p.side = .right ∧ b.contains p.line = true

/-- The keys of the head revision that are taken are those of the lines with a comment. -/
theorem mem_keys_right_iff {hunks : List Hunk} {path : String} {existing : List Annotation}
    {place : Int} :
    ⟨path, place, .right⟩ ∈ existing.filterMap (·.key? hunks path) ↔
      ∃ n, IsCommented existing path n ∧ anchorLine hunks n = place := by
  rw [List.mem_filterMap]
  constructor
  · rintro ⟨a, ha, hkey⟩
    unfold Annotation.key? at hkey
    split at hkey
    · next hpath =>
      obtain ⟨n, hn, heq⟩ := Option.map_eq_some_iff.mp hkey
      rw [AnnotationKey.mk.injEq] at heq
      obtain ⟨-, hplace, hside⟩ := heq
      rw [hside] at hplace
      exact ⟨n, ⟨a, ha, hpath, hside, hn⟩, hplace⟩
    · cases hkey
  · rintro ⟨n, ⟨a, ha, hpath, hside, hn⟩, hplace⟩
    refine ⟨a, ha, ?_⟩
    unfold Annotation.key?
    rw [if_pos hpath, hn, Option.map_some, hside, placeOf, hplace]

/-- What is planned for blocks that lie apart is planned at their first changed lines, for each
block at most once. -/
theorem annotates_reportOn_iff {r : Reviewer} {path : String} {d : FileDiff} {blocks : List Block}
    {existing : List Annotation} {b : Block} {m : Int}
    (h : blocks.Pairwise fun b c ↦ b.endLine < c.startLine) (hb : b ∈ blocks)
    (hm : b.firstIn? d.changed = some m) :
    (r.reportOn path d blocks [] existing).Annotates existing b ↔
      (∃ n, IsCommented existing path n ∧ b.contains n = true) ∨
        (∀ n, IsCommented existing path n → anchorLine d.hunks n ≠ anchorLine d.hunks m) ∧
          ∀ c ∈ changedBlocks blocks d.changed, c.line < m →
            anchorLine d.hunks c.line ≠ anchorLine d.hunks m := by
  have hcandidate : ⟨b, m⟩ ∈ changedBlocks blocks d.changed :=
    (mem_changedBlocks h).mpr ⟨hb, hm⟩
  have hin := (Block.firstIn?_eq_some_iff.mp hm).2.1
  have hplan : Candidate.draft path r.comment d.hunks .right ⟨b, m⟩ ∈
      (plan path r.comment d.hunks existing .right (changedBlocks blocks d.changed)).drafts ↔ _ :=
    draft_mem_plan_iff (pairwise_changedBlocks h) hcandidate
  rw [mem_keys_right_iff] at hplan
  apply or_congr_right
  constructor
  · rintro ⟨p, hp, -, -, hbp⟩
    have hright : p ∈
        (plan path r.comment d.hunks existing .right (changedBlocks blocks d.changed)).drafts :=
      (List.mem_append.mp hp).resolve_right List.not_mem_nil
    -- A draft within the block is the one of the block.
    obtain ⟨c, hc, rfl⟩ := exists_of_mem_plan hright
    obtain ⟨hblock, hline⟩ := (mem_changedBlocks h).mp hc
    obtain rfl := eq_of_contains h hblock hb (Block.firstIn?_eq_some_iff.mp hline).2.1 hbp
    obtain rfl : c.line = m := Option.some.inj (hline.symm.trans hm)
    obtain ⟨hnew, hbefore⟩ := hplan.mp hright
    exact ⟨fun n hn heq ↦ hnew ⟨n, hn, heq⟩, hbefore⟩
  · rintro ⟨hnew, hbefore⟩
    refine ⟨_, List.mem_append_left _ (hplan.mpr ⟨?_, hbefore⟩), rfl, rfl, hin⟩
    rintro ⟨n, hn, heq⟩
    exact hnew n hn heq

/-- A block that changed lines lie in is annotated exactly where a comment on the head revision
stands within it already, or its first changed line counts as standing where neither such a
comment stands nor the line of an earlier candidate. Without comments one annotation is planned
for each candidate exactly where these lines count as standing at different places. A changed
line counts as standing as far from the start of the base range of its hunk as from the start of
the head range. -/
theorem preview_annotates_iff (r : Reviewer) (base head path : String)
    (existing : List Annotation) (report : FileReport) (hpath : '\n' ∉ path.toList)
    (h : r.preview path (some head) (Diff.unified base head path 0) existing none = .ok report) :
    ∃ d, FileDiff.ofText (Diff.unified base head path 0) path = .ok d ∧
      (∀ b ∈ report.blocks, ∀ n ∈ d.changed, b.contains n = true →
        ∃ m, b.firstIn? d.changed = some m ∧
          (report.Annotates existing b ↔
            (∃ n, IsCommented existing path n ∧ b.contains n = true) ∨
              (∀ n, IsCommented existing path n →
                anchorLine d.hunks n ≠ anchorLine d.hunks m) ∧
                ∀ c ∈ report.candidates, c.line < m →
                  anchorLine d.hunks c.line ≠ anchorLine d.hunks m)) ∧
      (existing = [] →
        report.planned.length + report.skipped = report.candidates.length ∧
          (report.skipped = 0 ↔
            (report.candidates.map fun c ↦ anchorLine d.hunks c.line).Nodup)) ∧
      ∀ k ∈ d.hunks, ∀ n, k.headFirst ≤ n → n < k.headNext → 1 < n →
        anchorLine d.hunks n = n - k.headStart + k.baseStart := by
  obtain ⟨d, blocks, removed, hd, hblocks, hremoved, rfl⟩ := Reviewer.preview_eq_ok_iff.mp h
  obtain rfl : [] = removed := Except.ok.inj hremoved
  obtain ⟨text, -, hscan⟩ := Reviewer.scanText_eq_ok_iff.mp hblocks
  have hascending := Scanner.ascending_of_scan hscan
  refine ⟨d, hd, ?_, ?_, ?_⟩
  · intro b hb n hn hbn
    obtain ⟨m, hm⟩ := Block.exists_firstIn? hn hbn
    exact ⟨m, hm, annotates_reportOn_iff hascending hb hm⟩
  · rintro rfl
    refine ⟨?_, skipped_plan_nil_iff⟩
    have := length_planFrom [] ((changedBlocks blocks d.changed).map
      (·.draft path r.comment d.hunks .right))
    rw [List.length_map] at this
    simpa [Reviewer.reportOn, plan, planFrom] using this
  · intro k hk n hfirst hnext hn
    exact (Diff.partitions_of_ofText_unified hpath hd).anchorLine_eq hk hfirst hnext hn

/-! ### A route that is changed and one that is not annotated -/

/-- What a review by the default settings without comments consists of. -/
private theorem preview_ofDefaults (base head : String) (hunks : List Hunk) (blocks : List Block)
    (hhunks : (Diff.hunksOf (Diff.unified base head "r.js" 0)).toOption = some hunks)
    (hblocks : (Reviewer.ofDefaults.scanner.scan none (Text.lines head)).toOption =
      some blocks) :
    FileDiff.ofText (Diff.unified base head "r.js" 0) "r.js" = .ok (.ofHunks "r.js" hunks) ∧
      Reviewer.ofDefaults.preview "r.js" (some head) (Diff.unified base head "r.js" 0) [] none =
        .ok (Reviewer.ofDefaults.reportOn "r.js" (.ofHunks "r.js" hunks) blocks [] []) := by
  have hread : FileDiff.ofText (Diff.unified base head "r.js" 0) "r.js" =
      .ok (.ofHunks "r.js" hunks) := congrArg (Except.map _) (except_eq_ok_of_toOption hhunks)
  have hscan : Reviewer.scanText Reviewer.ofDefaults.scanner (some head) (some "r.js") none =
      .ok blocks := Reviewer.scanText_eq_ok_iff.mpr ⟨head, rfl, except_eq_ok_of_toOption hblocks⟩
  exact ⟨hread, Reviewer.preview_eq_ok_iff.mpr ⟨_, blocks, [], hread, hscan, rfl, rfl⟩⟩

private theorem not_isCommented_nil {path : String} {n : Int} : ¬IsCommented [] path n := by
  rintro ⟨a, ha, -⟩
  exact List.not_mem_nil ha

/-- The one route of a file is changed, and annotated. -/
theorem preview_annotates_iff_changed :
    '\n' ∉ "r.js".toList ∧
      ∃ report, Reviewer.ofDefaults.preview "r.js"
          (some "const router = express.Router();\nrouter.b(2);\n")
          (Diff.unified "const router = express.Router();\nrouter.b(1);\n"
            "const router = express.Router();\nrouter.b(2);\n" "r.js" 0) [] none = .ok report ∧
        ∃ b ∈ report.blocks, report.Annotates [] b := by
  have hpath : '\n' ∉ "r.js".toList := by decide
  obtain ⟨hread, hpreview⟩ := preview_ofDefaults
    "const router = express.Router();\nrouter.b(1);\n"
    "const router = express.Router();\nrouter.b(2);\n"
    [⟨2, 2, 1, 1⟩] [⟨2, 2, "router.b(2);", .singleLine⟩]
    (by decide +kernel) (by decide +kernel)
  refine ⟨hpath, _, hpreview, _, List.mem_singleton_self _, ?_⟩
  obtain ⟨d, hd, hblocks, -⟩ := preview_annotates_iff _ _ _ _ _ _ hpath hpreview
  obtain rfl := Except.ok.inj (hread.symm.trans hd)
  have hchanged : (2 : Int) ∈ (FileDiff.ofHunks "r.js" [⟨2, 2, 1, 1⟩]).changed :=
    Diff.LineSet.mem_ofList.mpr (by decide)
  obtain ⟨m, hm, hiff⟩ := hblocks _ (List.mem_singleton_self _) 2 hchanged (by decide)
  refine hiff.mpr (.inr ⟨fun n hn ↦ absurd hn not_isCommented_nil, ?_⟩)
  intro c hc hlt
  -- The route is the only candidate.
  obtain ⟨hblock, hline⟩ := (mem_changedBlocks (List.pairwise_singleton _ _)).mp hc
  rw [List.mem_singleton.mp hblock, hm] at hline
  have := Option.some.inj hline
  omega

/-- A route is added after two empty lines, and the route two lines further on is changed. Both
count as standing at one line, so that the changed route is not annotated. -/
theorem preview_annotates_iff_dropped :
    ∃ report d, Reviewer.ofDefaults.preview "r.js"
        (some "const router = express.Router();\n\n\nrouter.a();\ny\nrouter.b(2);\n")
        (Diff.unified "const router = express.Router();\ny\nrouter.b(1);\n"
          "const router = express.Router();\n\n\nrouter.a();\ny\nrouter.b(2);\n" "r.js" 0)
        [] none = .ok report ∧
      FileDiff.ofText (Diff.unified "const router = express.Router();\ny\nrouter.b(1);\n"
        "const router = express.Router();\n\n\nrouter.a();\ny\nrouter.b(2);\n" "r.js" 0)
        "r.js" = .ok d ∧
      ∃ b ∈ report.blocks, (∃ n ∈ d.changed, b.contains n = true) ∧ ¬report.Annotates [] b := by
  obtain ⟨hread, hpreview⟩ := preview_ofDefaults
    "const router = express.Router();\ny\nrouter.b(1);\n"
    "const router = express.Router();\n\n\nrouter.a();\ny\nrouter.b(2);\n"
    [⟨1, 2, 0, 3⟩, ⟨3, 6, 1, 1⟩]
    [⟨4, 4, "router.a();", .singleLine⟩, ⟨6, 6, "router.b(2);", .singleLine⟩]
    (by decide +kernel) (by decide +kernel)
  have hascending : [(⟨4, 4, "router.a();", .singleLine⟩ : Block),
      ⟨6, 6, "router.b(2);", .singleLine⟩].Pairwise fun b c ↦ b.endLine < c.startLine := by
    decide
  have hchanged (n : Int) (hn : n = 4 ∨ n = 6) :
      n ∈ (FileDiff.ofHunks "r.js" [⟨1, 2, 0, 3⟩, ⟨3, 6, 1, 1⟩]).changed := by
    rcases hn with rfl | rfl <;> exact Diff.LineSet.mem_ofList.mpr (by decide)
  -- A block of one changed line has this line for its first.
  have hfirst (b : Block) (n : Int) (hb : b.startLine = n ∧ b.endLine = n) (hn : n = 4 ∨ n = 6) :
      b.firstIn? (FileDiff.ofHunks "r.js" [⟨1, 2, 0, 3⟩, ⟨3, 6, 1, 1⟩]).changed = some n := by
    rw [Block.firstIn?_eq_some_iff]
    refine ⟨hchanged n hn, Block.contains_iff.mpr (by omega), fun k _ hk ↦ ?_⟩
    rw [Block.contains_iff] at hk
    omega
  refine ⟨_, _, hpreview, hread, ⟨6, 6, "router.b(2);", .singleLine⟩,
    List.mem_of_getElem? (i := 1) rfl, ⟨6, hchanged 6 (.inr rfl), by decide⟩, ?_⟩
  rw [annotates_reportOn_iff hascending (List.mem_of_getElem? (i := 1) rfl)
    (hfirst _ 6 ⟨rfl, rfl⟩ (.inr rfl))]
  rintro (⟨n, hn, -⟩ | ⟨-, hplaces⟩)
  · exact not_isCommented_nil hn
  · have hmem : ⟨⟨4, 4, "router.a();", .singleLine⟩, 4⟩ ∈ changedBlocks
        [⟨4, 4, "router.a();", .singleLine⟩, ⟨6, 6, "router.b(2);", .singleLine⟩]
        (FileDiff.ofHunks "r.js" [⟨1, 2, 0, 3⟩, ⟨3, 6, 1, 1⟩]).changed :=
      (mem_changedBlocks hascending).mpr
        ⟨List.mem_cons_self .., hfirst _ 4 ⟨rfl, rfl⟩ (.inl rfl)⟩
    exact hplaces _ hmem (by decide) (by decide)

end RouteWatch
