import RouteWatch.Proofs.Diff.UniqueLines
import RouteWatch.Proofs.Review.Preview
import RouteWatch.Proofs.Route.JoinedScans

/-!
# Routes that are added

A route that is put into a file between two others becomes a block between their blocks. The other
routes are left alone where the diff names no line of them, as it does where every line of the old
file stands only once in the new one. A diff that takes the last line of a route for that of the
route before it names lines of both.
-/

namespace RouteWatch

open RouteWatch.Diff (FileDiff LineSet unified)
open RouteWatch.Text (IsLine digitLimit lines)

variable {blocks : List Block} {changed : LineSet}

/-! ### Candidates -/

/-- The only candidates are blocks of a text where no line of another one has changed. -/
theorem forall_changedBlocks_body_iff (h : blocks.Pairwise fun b c ↦ b.endLine < c.startLine)
    (body : String) :
    (∀ c ∈ changedBlocks blocks changed, c.block.body = body) ↔
      ∀ b ∈ blocks, b.body ≠ body → ∀ n, b.contains n = true → n ∉ changed := by
  constructor
  · intro hall b hb hbody n hn hchanged
    obtain ⟨m, hm⟩ := Block.exists_firstIn? hchanged hn
    exact hbody (hall ⟨b, m⟩ ((mem_changedBlocks h).mpr ⟨hb, hm⟩))
  · intro hnone c hc
    obtain ⟨hb, hm⟩ := (mem_changedBlocks h).mp hc
    obtain ⟨hchanged, hcontains, -⟩ := Block.firstIn?_eq_some_iff.mp hm
    exact Classical.byContradiction fun hbody ↦ hnone _ hb hbody _ hcontains hchanged

/-- Where the lines of one block have changed and no other ones, this block is the candidate, at its
first line. -/
theorem changedBlocks_eq_singleton {before after : List Block} {b : Block}
    (h : (before ++ b :: after).Pairwise fun b c ↦ b.endLine < c.startLine)
    (hchanged : ∀ n, n ∈ changed ↔ b.contains n = true) (hle : b.startLine ≤ b.endLine) :
    changedBlocks (before ++ b :: after) changed = [⟨b, b.startLine⟩] := by
  obtain ⟨-, hafter, hbefore⟩ := List.pairwise_append.mp h
  have hapart (c : Block) (hc : c.endLine < b.startLine ∨ b.endLine < c.startLine) :
      (c.firstIn? changed).map (Candidate.mk c) = none := by
    rw [Option.map_eq_none_iff, Option.eq_none_iff_forall_ne_some]
    intro m hm
    obtain ⟨hmem, hcm, -⟩ := Block.firstIn?_eq_some_iff.mp hm
    have hbm := (hchanged m).mp hmem
    rw [Block.contains_iff] at hbm hcm
    omega
  have hself : b.firstIn? changed = some b.startLine := by
    refine Block.firstIn?_eq_some_iff.mpr ⟨(hchanged _).mpr ?_, ?_, fun n _ hn ↦ ?_⟩
    · exact Block.contains_iff.mpr ⟨Int.le_refl _, hle⟩
    · exact Block.contains_iff.mpr ⟨Int.le_refl _, hle⟩
    · exact (Block.contains_iff.mp hn).1
  rw [changedBlocks_eq h, List.filterMap_append, List.filterMap_cons, hself,
    List.filterMap_eq_nil_iff.mpr, List.filterMap_eq_nil_iff.mpr]
  · rfl
  · exact fun c hc ↦ hapart c (.inr ((List.pairwise_cons.mp hafter).1 c hc))
  · exact fun c hc ↦ hapart c (.inl (hbefore c hc b (List.mem_cons_self ..)))

/-! ### The added lines -/

/-- Where a block begins at the first line, the identifier was there before it. -/
private theorem Scanner.ne_empty_of_startLine {s : Scanner} {identifier : String}
    {added : List String} {b : Block} (h : s.scan (some identifier) added = .ok blocks)
    (hb : b ∈ blocks) (hfirst : b.startLine = 1) : identifier ≠ "" := by
  rintro rfl
  rcases Scanner.scan_cases h with ⟨d, name, hbinds, hscan⟩ | ⟨-, rfl⟩
  · obtain ⟨⟨l, hl, -⟩, -⟩ : s.DeclaresFirst added d name := hbinds
    have := hl.le.1
    have := (hscan.within b hb).1
    omega
  · exact absurd hb List.not_mem_nil

private theorem isLine_of_getElem {ls : List String} {n : Int} (hfirst : 1 ≤ n)
    (hlast : n ≤ ls.length) : ∃ l, IsLine ls n l ∧ ls[(n - 1).toNat]? = some l := by
  have hlt : (n - 1).toNat < ls.length := by omega
  exact ⟨_, ⟨_, by omega, List.getElem?_eq_getElem hlt⟩, List.getElem?_eq_getElem hlt⟩

/-- The changed lines are those that were put between the others, where each line of the old text
stands only once in the new one. -/
private theorem mem_changed_iff_added {base head path : String} {d : FileDiff}
    {first added last : List String} (hpath : '\n' ∉ path.toList)
    (hd : FileDiff.ofText (unified base head path 0) path = .ok d)
    (hbase : lines base = first ++ last) (hhead : lines head = first ++ (added ++ last))
    (hunique : ∀ l ∈ lines base, (lines head).count l = 1) (n : Int) :
    n ∈ d.changed ↔ (first.length : Int) < n ∧ n ≤ first.length + added.length := by
  have hsub : (lines base).Sublist (lines head) := by
    rw [hbase, hhead]
    exact (List.sublist_append_right added last).append_left first
  rw [(Diff.added_of_ofText_unified hpath hd hsub hunique n).2]
  constructor
  · rintro ⟨l, ⟨k, rfl, hl⟩, hnot⟩
    rw [hbase, List.mem_append, not_or] at hnot
    rw [hhead, List.getElem?_append] at hl
    split at hl
    next => exact absurd (List.mem_of_getElem? hl) hnot.1
    next hfirst =>
      rw [List.getElem?_append] at hl
      split at hl
      next => omega
      next => exact absurd (List.mem_of_getElem? hl) hnot.2
  · rintro ⟨hfirst, hlast⟩
    have hlength : (lines head).length = first.length + (added.length + last.length) := by
      rw [hhead, List.length_append, List.length_append]
    obtain ⟨l, hline, hl⟩ := @isLine_of_getElem (lines head) n (by omega) (by omega)
    refine ⟨l, hline, fun hmem ↦ ?_⟩
    rw [hhead, List.getElem?_append_right (by omega), List.getElem?_append_left (by omega)] at hl
    have hadded := List.one_le_count_iff.mpr (List.mem_of_getElem? hl)
    have hone := hunique l hmem
    rw [hbase, ← List.one_le_count_iff, List.count_append] at hmem
    rw [hhead, List.count_append, List.count_append] at hone
    omega

/-! ### Reviews of a file with an added route -/

/-- A review of a file into which a route was put, behind the declaration and not within another
block, finds its block between those before and those after it. It makes no other route a candidate
exactly where the diff names no line of one. Where each line of the old file stands only once in the
new one the only candidate is the added route, at its first line. -/
theorem preview_added_route (r : Reviewer) (path base head : String) (existing : List Annotation)
    (first added last : List String) (identifier : String) (d : Nat) (blocks : List Block)
    (b : Block) (hpath : '\n' ∉ path.toList) (hlines : (lines head).length < Nat.pow 10 digitLimit)
    (hbase : lines base = first ++ last) (hhead : lines head = first ++ (added ++ last))
    (hdeclares : r.scanner.DeclaresFirst (lines base) d identifier) (hd : d ≤ first.length)
    (hscan : r.scanner.scan none (lines base) = .ok blocks) (hclosed : AllClosed blocks)
    (hbetween : ∀ c ∈ blocks, ¬(c.startLine ≤ first.length ∧ first.length < c.endLine))
    (hadded : r.scanner.scan (some identifier) added = .ok [b]) (hb : b.closing ≠ .incomplete)
    (hcovers : b.startLine = 1 ∧ b.endLine = added.length) :
    ∃ report diff before after,
      r.preview path (some head) (unified base head path 0) existing none = .ok report ∧
      FileDiff.ofText (unified base head path 0) path = .ok diff ∧
      blocks = before ++ after ∧
      report.blocks = before ++ b.shift first.length :: after.map (Block.shift added.length) ∧
      ((∀ c ∈ report.candidates, c.block.body = b.body) ↔
        ∀ c ∈ report.blocks, c.body ≠ b.body → ∀ n, c.contains n = true → n ∉ diff.changed) ∧
      ((∀ l ∈ lines base, (lines head).count l = 1) →
        report.candidates = [⟨b.shift first.length, first.length + 1⟩]) := by
  have hid := Scanner.ne_empty_of_startLine hadded (List.mem_singleton_self b) hcovers.1
  rw [hbase] at hdeclares hscan
  obtain ⟨before, after, hblocks, -, -, hinsert⟩ := Scanner.scan_insert hid hdeclares hd hscan
    hclosed hbetween hadded (List.forall_mem_singleton.mpr hb)
  rw [← hhead, List.map_singleton, List.append_assoc, List.singleton_append] at hinsert
  have hshorter : (lines base).length ≤ (lines head).length := by
    rw [hbase, hhead]
    exact ((List.sublist_append_right added last).append_left first).length_le
  obtain ⟨diff, hdiff⟩ : ∃ diff, FileDiff.ofText (unified base head path 0) path = .ok diff :=
    ⟨_, congrArg (Except.map (FileDiff.ofHunks path))
      (Diff.hunksOf_unified_of_lt hpath (Nat.lt_of_le_of_lt hshorter hlines) hlines)⟩
  have hascending := Scanner.ascending_of_scan hinsert
  have hpreview := @Reviewer.preview_eq_reportOn r path _ none existing _ _ _ _ hdiff hinsert rfl
  refine ⟨_, diff, before, after, hpreview, hdiff, hblocks, rfl,
    forall_changedBlocks_body_iff hascending b.body, fun hunique ↦ ?_⟩
  have hchanged (n : Int) : n ∈ diff.changed ↔ (b.shift first.length).contains n = true := by
    rw [mem_changed_iff_added hpath hdiff hbase hhead hunique, Block.contains_iff,
      Block.shift_startLine, Block.shift_endLine, hcovers.1, hcovers.2]
    omega
  have hwithin := (Scanner.within_of_scan hadded (List.mem_singleton_self b)).2.1
  have hsingle := changedBlocks_eq_singleton hascending hchanged (by
    rw [Block.shift_startLine, Block.shift_endLine]
    omega)
  rw [Block.shift_startLine, hcovers.1, Int.add_comm 1] at hsingle
  exact hsingle

/-- A route of one line. -/
def loneRoute : String := "const r = express.Router();\nr.a();\n"

/-- The file with a second one behind it. -/
def twoRoutes : String := "const r = express.Router();\nr.a();\nr.b(\n x);\n"

/-- A route of which no other one has a line is added at the end, and is the only candidate. -/
theorem preview_added_route_unlike :
    '\n' ∉ "r.js".toList ∧ (lines twoRoutes).length < Nat.pow 10 digitLimit ∧
      Reviewer.ofDefaults.scanner.DeclaresFirst (lines loneRoute) 1 "r" ∧
      (∀ l ∈ lines loneRoute, (lines twoRoutes).count l = 1) ∧
      ∃ report, Reviewer.ofDefaults.preview "r.js" (some twoRoutes)
          (unified loneRoute twoRoutes "r.js" 0) [] none = .ok report ∧
        report.candidates = [⟨⟨3, 4, "r.b(\n x);", .multiLine⟩, 3⟩] := by
  have hpath : '\n' ∉ "r.js".toList := by decide
  have hlines (k : Nat) (hk : k ≠ 0) : (lines twoRoutes).length < Nat.pow 10 k :=
    Nat.lt_of_lt_of_le (show _ < 10 by decide +kernel) (Nat.le_self_pow hk 10)
  replace hlines := hlines digitLimit (by decide)
  have hdeclares : Reviewer.ofDefaults.scanner.DeclaresFirst (lines loneRoute) 1 "r" := by
    refine ⟨⟨"const r = express.Router();", ⟨0, rfl, by decide +kernel⟩, ?_⟩, fun n l hn hl ↦ ?_⟩
    · exact except_eq_ok_of_toOption (by decide +kernel)
    · have := hl.le.1
      omega
  have hscan : Reviewer.ofDefaults.scanner.scan none (lines loneRoute) =
      .ok [⟨2, 2, "r.a();", .singleLine⟩] := except_eq_ok_of_toOption (by decide +kernel)
  have hadded : Reviewer.ofDefaults.scanner.scan (some "r") ["r.b(", " x);"] =
      .ok [⟨1, 2, "r.b(\n x);", .multiLine⟩] := except_eq_ok_of_toOption (by decide +kernel)
  have hunique : ∀ l ∈ lines loneRoute, (lines twoRoutes).count l = 1 := by decide +kernel
  obtain ⟨report, -, -, -, hpreview, -, -, -, -, hcandidates⟩ :=
    preview_added_route Reviewer.ofDefaults "r.js" loneRoute twoRoutes []
      ["const r = express.Router();", "r.a();"] ["r.b(", " x);"] [] "r" 1 _ _ hpath hlines
      (by decide +kernel) (by decide +kernel) hdeclares (by decide) hscan
      (List.forall_mem_singleton.mpr (by decide)) (List.forall_mem_singleton.mpr (by decide))
      hadded (by decide) ⟨rfl, rfl⟩
  exact ⟨hpath, hlines, hdeclares, hunique, report, hpreview, hcandidates hunique⟩

/-- Two routes that end with the same line, and a line that belongs to none. -/
def closedAlike : String := "const r = express.Router();\nr.a(\n);\nr.c(\n);\nx\n"

/-- The file with a third one between them. -/
def threeAlike : String := "const r = express.Router();\nr.a(\n);\nr.b(\n);\nr.c(\n);\nx\n"

/-- A route is added between two that end with the same line as it does. The diff names the last
line of the route before it and its first one, so that both are candidates. -/
theorem preview_added_route_alike :
    Reviewer.ofDefaults.scanner.scan none (lines closedAlike) =
        .ok [⟨2, 3, "r.a(\n);", .multiLine⟩, ⟨4, 5, "r.c(\n);", .multiLine⟩] ∧
      Reviewer.ofDefaults.scanner.scan (some "r") ["r.b(", ");"] =
        .ok [⟨1, 2, "r.b(\n);", .multiLine⟩] ∧
      lines threeAlike =
        (lines closedAlike).take 3 ++ (["r.b(", ");"] ++ (lines closedAlike).drop 3) ∧
      ∃ report, Reviewer.ofDefaults.preview "r.js" (some threeAlike)
          (unified closedAlike threeAlike "r.js" 0) [] none = .ok report ∧
        ¬∀ c ∈ report.candidates, c.block.body = "r.b(\n);" := by
  have hblocks : (Reviewer.ofDefaults.scanner.scan none (lines threeAlike)).toOption =
      some [⟨2, 3, "r.a(\n);", .multiLine⟩, ⟨4, 5, "r.b(\n);", .multiLine⟩,
        ⟨6, 7, "r.c(\n);", .multiLine⟩] := by
    decide +kernel
  have hhunks : (Diff.hunksOf (unified closedAlike threeAlike "r.js" 0)).toOption =
      some [⟨2, 3, 0, 2⟩] := by
    decide +kernel
  have hscan := except_eq_ok_of_toOption hblocks
  have hpreview := @Reviewer.preview_eq_reportOn Reviewer.ofDefaults "r.js" _ none [] _ _ _ []
    (congrArg (Except.map (FileDiff.ofHunks "r.js")) (except_eq_ok_of_toOption hhunks)) hscan rfl
  refine ⟨except_eq_ok_of_toOption (by decide +kernel),
    except_eq_ok_of_toOption (by decide +kernel), by decide +kernel, _, hpreview, fun hall ↦ ?_⟩
  -- The third line of the file is the last one of the first route.
  refine (forall_changedBlocks_body_iff (Scanner.ascending_of_scan hscan) _).mp hall _
    (List.mem_cons_self ..) (by decide) 3 (by decide) ?_
  exact LineSet.mem_ofList.mpr (by decide)

end RouteWatch
