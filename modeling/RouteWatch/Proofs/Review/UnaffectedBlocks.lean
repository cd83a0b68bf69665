import RouteWatch.Proofs.Diff.Origin
import RouteWatch.Proofs.Review.Preview
import RouteWatch.Proofs.Route.ChosenLines

/-!
# Blocks that are no candidates

A block is a candidate where it has a new line. One that is no candidate consists of lines of the
base revision in their order, between which nothing stood there but lines that were removed. Where
no hunk only deletes lines between two lines of the block, the block stands in the base revision as
it is. A block from whose midst lines were deleted, and to which none was added, is no candidate.
-/

namespace RouteWatch

open RouteWatch.Diff (FileDiff Hunk unified)
open RouteWatch.Text (IsLine lines)

/-- The lines of the block stand in the base revision one after the other. -/
def Block.OccursIn (b : Block) (head base : List String) : Prop :=
  ∃ shift : Int, ∀ n l, b.contains n = true → IsLine head n l → IsLine base (n + shift) l

/-- The lines of the block stand in the base revision at these places, in order, and what stands
there between them was removed. -/
structure Block.RemainsOf (b : Block) (d : FileDiff) (base head : List String)
    (place : Int → Int) : Prop where
  isLine : ∀ n l, b.contains n = true → IsLine head n l → IsLine base (place n) l
  ascending : ∀ m n, b.contains m = true → b.contains n = true → m < n → place m < place n
  between : ∀ k, place b.startLine ≤ k → k ≤ place b.endLine →
    k ∈ d.removed ∨ ∃ n, b.contains n = true ∧ place n = k

/-- The hunk only deletes lines, and does so between two lines of the block. -/
def Diff.Hunk.DeletesWithin (h : Hunk) (b : Block) : Prop :=
  h.headCount = 0 ∧ b.startLine ≤ h.headStart ∧ h.headStart < b.endLine

variable {d : FileDiff} {base head : List String} {b : Block}

/-- A block without new lines is what remains of a stretch of the base revision. -/
theorem remainsOf_origin (hd : d.Partitions base head) (hle : b.startLine ≤ b.endLine)
    (hnone : ∀ n, b.contains n = true → n ∉ d.changed) : b.RemainsOf d base head d.origin where
  isLine n l hn hl := hd.isLine_origin (hnone n hn) hl
  ascending m n hm hn hlt := by
    rw [Block.contains_iff] at hm hn
    refine (hd.origin_lt hlt fun j hmj hjn ↦ hnone j (Block.contains_iff.mpr ?_)).1
    omega
  between k hfirst hlast := by
    have hends : b.contains b.startLine = true ∧ b.contains b.endLine = true := by
      simp only [Block.contains_iff]
      omega
    rcases Int.lt_or_eq_of_le hle with hlt | heq
    · obtain ⟨-, hbetween⟩ := hd.origin_lt hlt fun j hj hj' ↦
        hnone j (Block.contains_iff.mpr ⟨hj, hj'⟩)
      rcases Int.lt_or_eq_of_le hfirst with hk | rfl
      · rcases Int.lt_or_eq_of_le hlast with hk' | rfl
        · rcases hbetween k hk hk' with hremoved | ⟨j, hj, hj', horigin⟩
          · exact .inl hremoved
          · exact .inr ⟨j, Block.contains_iff.mpr (by omega), horigin⟩
        · exact .inr ⟨b.endLine, hends.2, rfl⟩
      · exact .inr ⟨b.startLine, hends.1, rfl⟩
    · rw [← heq] at hlast
      exact .inr ⟨b.startLine, hends.1, by omega⟩

/-- A block without new lines, from whose midst none was deleted, stands in the base revision. -/
theorem occursIn_of_forall_notMem (hd : d.Partitions base head)
    (hnone : ∀ n, b.contains n = true → n ∉ d.changed)
    (hwhole : ∀ h ∈ d.hunks, ¬h.DeletesWithin b) : b.OccursIn head base := by
  refine ⟨d.origin b.startLine - b.startLine, fun n l hn hl ↦ ?_⟩
  have hline := hd.isLine_origin (hnone n hn) hl
  rw [Block.contains_iff] at hn
  have hshift := hd.origin_sub_eq hn.1 (fun j hj hj' ↦ hnone j (Block.contains_iff.mpr (by omega)))
    fun h hh hcount hin ↦ hwhole h hh (by
      simp only [Hunk.headFirst, Diff.firstLine, if_pos hcount] at hin
      exact ⟨hcount, by omega, by omega⟩)
  rwa [show n + (d.origin b.startLine - b.startLine) = d.origin n by omega]

/-- A block that a review does not make a candidate is what remains of a stretch of the base
revision when removed lines are taken out of it, and stands there as it is unless a hunk only
deletes lines between two of its lines. -/
theorem preview_unaffected_occurs (r : Reviewer) (base head path : String)
    (existing : List Annotation) (parent : Option String) (report : FileReport)
    (hpath : '\n' ∉ path.toList)
    (h : r.preview path (some head) (unified base head path 0) existing parent = .ok report) :
    ∃ d, FileDiff.ofText (unified base head path 0) path = .ok d ∧
      ∀ b ∈ report.blocks, (∀ c ∈ report.candidates, c.block ≠ b) →
        (∃ place, b.RemainsOf d (lines base) (lines head) place) ∧
          ((∀ k ∈ d.hunks, ¬k.DeletesWithin b) → b.OccursIn (lines head) (lines base)) := by
  obtain ⟨d, blocks, removed, hd, hblocks, -, rfl⟩ := Reviewer.preview_eq_ok_iff.mp h
  obtain ⟨text, htext, hscan⟩ := Reviewer.scanText_eq_ok_iff.mp hblocks
  obtain rfl := Option.some.inj htext
  refine ⟨d, hd, fun b hb hcandidates ↦ ?_⟩
  have hparts := Diff.partitions_of_ofText_unified hpath hd
  have hnone (n : Int) (hn : b.contains n = true) : n ∉ d.changed := by
    intro hchanged
    obtain ⟨m, hm⟩ := Block.exists_firstIn? hchanged hn
    exact hcandidates ⟨b, m⟩
      ((mem_changedBlocks (Scanner.ascending_of_scan hscan)).mpr ⟨hb, hm⟩) rfl
  exact ⟨⟨d.origin, remainsOf_origin hparts (Scanner.within_of_scan hscan hb).2.1 hnone⟩,
    occursIn_of_forall_notMem hparts hnone⟩

/-! ### A route that loses a line -/

/-- Two routes of several lines. -/
def guardedRoutes : String := "const r = express.Router();\nr.a(\n auth,\n h);\nr.b(\n g);\n"

/-- The file in which the first route has lost its second line. -/
def unguardedRoutes : String := "const r = express.Router();\nr.a(\n h);\nr.b(\n g);\n"

/-- The routes that are left. -/
private def unguardedBlocks : List Block :=
  [⟨2, 3, "r.a(\n h);", .multiLine⟩, ⟨4, 5, "r.b(\n g);", .multiLine⟩]

/-- The diff only deletes a line, and the review reports both routes and no candidate. -/
private theorem preview_unguarded :
    ∃ report d, Reviewer.ofDefaults.preview "r.js" (some unguardedRoutes)
        (unified guardedRoutes unguardedRoutes "r.js" 0) [] none = .ok report ∧
      FileDiff.ofText (unified guardedRoutes unguardedRoutes "r.js" 0) "r.js" = .ok d ∧
      d.hunks = [⟨3, 2, 1, 0⟩] ∧ report.blocks = unguardedBlocks ∧ report.candidates = [] := by
  have hhunks : (Diff.hunksOf (unified guardedRoutes unguardedRoutes "r.js" 0)).toOption =
      some [⟨3, 2, 1, 0⟩] := by
    decide +kernel
  have hblocks : (Reviewer.ofDefaults.scanner.scan none (lines unguardedRoutes)).toOption =
      some unguardedBlocks := by
    decide +kernel
  have hread := congrArg (Except.map (FileDiff.ofHunks "r.js")) (except_eq_ok_of_toOption hhunks)
  have hscan := except_eq_ok_of_toOption hblocks
  have hpreview := @Reviewer.preview_eq_reportOn Reviewer.ofDefaults "r.js" _ none [] _ _ _ []
    hread hscan rfl
  refine ⟨_, _, hpreview, hread, rfl, rfl, List.eq_nil_iff_forall_not_mem.mpr fun c hc ↦ ?_⟩
  obtain ⟨-, hline⟩ := (mem_changedBlocks (Scanner.ascending_of_scan hscan)).mp hc
  exact absurd (Diff.LineSet.mem_ofList.mp (Block.firstIn?_eq_some_iff.mp hline).1)
    List.not_mem_nil

/-- The route that loses a line is what remains of it; the other one stands as it stood. -/
theorem preview_unaffected_occurs_unguarded :
    '\n' ∉ "r.js".toList ∧
      ∃ report d, Reviewer.ofDefaults.preview "r.js" (some unguardedRoutes)
          (unified guardedRoutes unguardedRoutes "r.js" 0) [] none = .ok report ∧
        FileDiff.ofText (unified guardedRoutes unguardedRoutes "r.js" 0) "r.js" = .ok d ∧
        report.blocks = unguardedBlocks ∧ report.candidates = [] ∧
        (∀ b ∈ unguardedBlocks,
          ∃ place, b.RemainsOf d (lines guardedRoutes) (lines unguardedRoutes) place) ∧
        (⟨4, 5, "r.b(\n g);", .multiLine⟩ : Block).OccursIn (lines unguardedRoutes)
          (lines guardedRoutes) := by
  have hpath : '\n' ∉ "r.js".toList := by decide
  obtain ⟨report, d, hpreview, hread, hhunks, hblocks, hcandidates⟩ := preview_unguarded
  obtain ⟨d', hread', hall⟩ := preview_unaffected_occurs _ _ _ _ _ _ _ hpath hpreview
  obtain rfl := Except.ok.inj (hread.symm.trans hread')
  rw [hblocks, hcandidates] at hall
  have hnone (b : Block) : ∀ c ∈ ([] : List Candidate), c.block ≠ b :=
    fun c hc ↦ absurd hc List.not_mem_nil
  refine ⟨hpath, report, d, hpreview, hread, hblocks, hcandidates,
    fun b hb ↦ (hall b hb (hnone b)).1,
    (hall _ (List.mem_of_getElem? (i := 1) rfl) (hnone _)).2 fun k hk hin ↦ ?_⟩
  rw [hhunks, List.mem_singleton] at hk
  subst hk
  have : (4 : Int) ≤ 2 := hin.2.1
  omega

/-- A route from which a line was deleted is no candidate, and does not stand in the base
revision. -/
theorem preview_unaffected_occurs_deleted :
    ∃ report, Reviewer.ofDefaults.preview "r.js" (some unguardedRoutes)
        (unified guardedRoutes unguardedRoutes "r.js" 0) [] none = .ok report ∧
      ∃ b ∈ report.blocks, (∀ c ∈ report.candidates, c.block ≠ b) ∧
        ¬b.OccursIn (lines unguardedRoutes) (lines guardedRoutes) := by
  obtain ⟨report, d, hpreview, -, -, hblocks, hcandidates⟩ := preview_unguarded
  refine ⟨report, hpreview, ?_⟩
  rw [hblocks, hcandidates]
  refine ⟨⟨2, 3, "r.a(\n h);", .multiLine⟩, List.mem_cons_self ..,
    fun c hc ↦ absurd hc List.not_mem_nil, ?_⟩
  have hhead : lines unguardedRoutes =
      ["const r = express.Router();", "r.a(", " h);", "r.b(", " g);"] := by
    decide +kernel
  have hbase : lines guardedRoutes =
      ["const r = express.Router();", "r.a(", " auth,", " h);", "r.b(", " g);"] := by
    decide +kernel
  rw [hhead, hbase]
  rintro ⟨shift, hshift⟩
  obtain ⟨j, hj, hfirst⟩ := hshift 2 "r.a(" (by decide) ⟨1, rfl, rfl⟩
  obtain ⟨k, hk, hsecond⟩ := hshift 3 " h);" (by decide) ⟨2, rfl, rfl⟩
  obtain rfl : k = j + 1 := by omega
  -- The first line stands only where the deleted line follows it.
  have hnot : ∀ i < 6, ["const r = express.Router();", "r.a(", " auth,", " h);", "r.b(",
      " g);"][i]? = some "r.a(" → ["const r = express.Router();", "r.a(", " auth,", " h);",
        "r.b(", " g);"][i + 1]? ≠ some " h);" := by
    decide
  exact hnot j (List.getElem?_eq_some_iff.mp hfirst).1 hfirst hsecond

end RouteWatch
