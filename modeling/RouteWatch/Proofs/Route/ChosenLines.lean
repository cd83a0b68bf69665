import RouteWatch.Proofs.Route.FirstFit
import RouteWatch.Proofs.Route.ScannedBlocks

/-!
# The line of an affected block

Blocks that a scan gives lie apart. Each of them that changed lines lie in becomes a candidate
at the first of these lines, whatever order the lines are given out in.
-/

namespace RouteWatch

open RouteWatch.Diff (LineSet)

variable {b c : Block} {blocks : List Block} {lines : LineSet} {m n : Int}

/-! ### Blocks that lie apart -/

/-- The blocks of a scan lie one after the other. -/
theorem Scanner.ascending_of_scan {s : Scanner} {given : Option String} {ls : List String}
    (h : s.scan given ls = .ok blocks) :
    blocks.Pairwise fun b c ↦ b.endLine < c.startLine := by
  rcases scan_cases h with ⟨d, identifier, -, hscan⟩ | ⟨-, hempty⟩
  · exact hscan.ascending
  · rw [hempty]
    exact List.Pairwise.nil

/-- The blocks of a scan lie within the lines that were scanned. -/
theorem Scanner.within_of_scan {s : Scanner} {given : Option String} {ls : List String}
    (h : s.scan given ls = .ok blocks) (hb : b ∈ blocks) :
    1 ≤ b.startLine ∧ b.startLine ≤ b.endLine ∧ b.endLine ≤ ls.length := by
  rcases scan_cases h with ⟨d, identifier, hbinds, hscan⟩ | ⟨-, hempty⟩
  · have hd : 0 ≤ d := hbinds.nonneg
    obtain ⟨hstart, hle, hend⟩ := hscan.within b hb
    exact ⟨by omega, hle, hend⟩
  · rw [hempty] at hb
    exact absurd hb List.not_mem_nil

/-- A line lies in one block at most. -/
theorem eq_of_contains (h : blocks.Pairwise fun b c ↦ b.endLine < c.startLine) (hb : b ∈ blocks)
    (hc : c ∈ blocks) (hbn : b.contains n = true) (hcn : c.contains n = true) : b = c := by
  rw [Block.contains_iff] at hbn hcn
  induction h with
  | nil => exact absurd hb List.not_mem_nil
  | cons hfirst _ ih =>
    rcases List.mem_cons.mp hb with rfl | hb'
    · rcases List.mem_cons.mp hc with rfl | hc'
      · rfl
      · have := hfirst c hc'
        omega
    · rcases List.mem_cons.mp hc with rfl | hc'
      · have := hfirst b hb'
        omega
      · exact ih hb' hc'

/-- The blocks that a line of a block lies in are this one. -/
theorem filter_contains_eq (h : blocks.Pairwise fun b c ↦ b.endLine < c.startLine)
    (hb : b ∈ blocks) (hbn : b.contains n = true) : blocks.filter (·.contains n) = [b] := by
  induction h with
  | nil => exact absurd hb List.not_mem_nil
  | @cons c cs hfirst _ ih =>
    rcases List.mem_cons.mp hb with rfl | hb'
    · rw [List.filter_cons_of_pos (p := fun b ↦ Block.contains b n) hbn, List.filter_eq_nil_iff.mpr]
      intro d hd hdn
      rw [Block.contains_iff] at hbn hdn
      have := hfirst d hd
      omega
    · have hcn : ¬c.contains n = true := by
        intro hcn
        rw [Block.contains_iff] at hbn hcn
        have := hfirst b hb'
        omega
      rw [List.filter_cons_of_neg (p := fun b ↦ Block.contains b n) hcn]
      exact ih hb'

/-! ### Giving out lines -/

/-- The first line of a set in a block. -/
def Block.firstIn? (b : Block) (lines : LineSet) : Option Int := lines.toList.find? b.contains

/-- The first line of a set in a block is the least one. -/
theorem Block.firstIn?_eq_some_iff :
    b.firstIn? lines = some m ↔
      m ∈ lines ∧ b.contains m = true ∧ ∀ n ∈ lines, b.contains n = true → m ≤ n :=
  find?_ascending lines.ascending

/-- A block that a line of a set lies in has a first one. -/
theorem Block.exists_firstIn? (hn : n ∈ lines) (hbn : b.contains n = true) :
    ∃ m, b.firstIn? lines = some m :=
  Option.isSome_iff_exists.mp (List.find?_isSome.mpr ⟨n, hn, hbn⟩)

/-- The candidates among blocks that lie apart: each block with its first changed line. -/
theorem changedBlocks_eq (h : blocks.Pairwise fun b c ↦ b.endLine < c.startLine) :
    changedBlocks blocks lines =
      blocks.filterMap fun b ↦ (b.firstIn? lines).map (⟨b, ·⟩) := by
  refine changedBlocks_of_apart (h.imp fun {b c} hbc n hbn ↦ ?_) lines
  rw [Block.contains_iff] at hbn
  rw [Bool.eq_false_iff, ne_eq, Block.contains_iff]
  omega

/-- The candidates are the blocks that changed lines lie in, at their first changed lines. -/
theorem mem_changedBlocks (h : blocks.Pairwise fun b c ↦ b.endLine < c.startLine)
    {c : Candidate} :
    c ∈ changedBlocks blocks lines ↔ c.block ∈ blocks ∧ c.block.firstIn? lines = some c.line := by
  rw [changedBlocks_eq h, List.mem_filterMap]
  constructor
  · rintro ⟨b, hb, hc⟩
    obtain ⟨m, hm, rfl⟩ := Option.map_eq_some_iff.mp hc
    exact ⟨hb, hm⟩
  · rintro ⟨hb, hm⟩
    exact ⟨c.block, hb, Option.map_eq_some_iff.mpr ⟨c.line, hm, rfl⟩⟩

/-- The candidates stand in the order of their lines. -/
theorem pairwise_changedBlocks (h : blocks.Pairwise fun b c ↦ b.endLine < c.startLine) :
    (changedBlocks blocks lines).Pairwise fun c e ↦ c.line < e.line := by
  rw [changedBlocks_eq h, List.pairwise_filterMap]
  apply h.imp
  rintro b c hbc _ hb _ hc
  obtain ⟨m, hm, rfl⟩ := Option.map_eq_some_iff.mp hb
  obtain ⟨n, hn, rfl⟩ := Option.map_eq_some_iff.mp hc
  have hbm := Block.contains_iff.mp (Block.firstIn?_eq_some_iff.mp hm).2.1
  have hcn := Block.contains_iff.mp (Block.firstIn?_eq_some_iff.mp hn).2.1
  show m < n
  omega

end RouteWatch
