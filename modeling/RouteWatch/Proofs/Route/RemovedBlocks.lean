import RouteWatch.Route.Select

/-!
# Blocks that were removed

Whether a block lies within a set of lines is found by walking through the ascending list of the
set. It does where all lines of the block are in the set, and so the candidates of the base
revision are the blocks whose lines were all removed, each with its first line.
-/

namespace RouteWatch

open RouteWatch.Diff (LineSet)

variable {b : Block} {blocks : List Block} {lines : LineSet}

/-- An ascending list of numbers that are not less than `n` covers the numbers from `n` up to
`last` where it has them all. -/
private theorem coversFrom_iff {n last : Int} {ks : List Int} (h : ks.Pairwise (· < ·))
    (hn : ∀ k ∈ ks, n ≤ k) :
    coversFrom n last ks = true ↔ ∀ m, n ≤ m → m ≤ last → m ∈ ks := by
  induction ks generalizing n with
  | nil =>
    rw [coversFrom, decide_eq_true_eq]
    constructor
    · intro hlt m hnm hm
      omega
    · intro hall
      rcases Int.lt_or_le last n with hlt | hle
      · exact hlt
      · exact absurd (hall n (Int.le_refl n) hle) List.not_mem_nil
  | cons k ks ih =>
    obtain ⟨hfirst, hks⟩ := List.pairwise_cons.mp h
    rw [coversFrom, Bool.or_eq_true, Bool.and_eq_true, decide_eq_true_eq, beq_iff_eq]
    constructor
    · rintro (hlt | ⟨rfl, hcovers⟩) m hnm hm
      · omega
      · rcases Int.lt_or_eq_of_le hnm with hlt | rfl
        · have hall := (ih hks fun j hj ↦ hfirst j hj).mp hcovers
          exact List.mem_cons_of_mem _ (hall m hlt hm)
        · exact List.mem_cons_self ..
    · intro hall
      rcases Int.lt_or_le last n with hlt | hle
      · exact .inl hlt
      · -- The number `n` can only be the first one.
        have hk : k = n := by
          rcases List.mem_cons.mp (hall n (Int.le_refl n) hle) with heq | hmem
          · exact heq.symm
          · have := hfirst n hmem
            have := hn k (List.mem_cons_self ..)
            omega
        subst hk
        refine .inr ⟨rfl, (ih hks fun j hj ↦ hfirst j hj).mpr ?_⟩
        intro m hkm hm
        refine (List.mem_cons.mp (hall m (by omega) hm)).resolve_left ?_
        omega

/-- What is dropped from the front of an ascending list are the numbers that are less. -/
private theorem mem_dropWhile_lt {n start : Int} {ks : List Int} (h : ks.Pairwise (· < ·)) :
    n ∈ ks.dropWhile (fun k ↦ decide (k < start)) ↔ n ∈ ks ∧ start ≤ n := by
  induction h with
  | nil => simp
  | @cons k ks hfirst _ ih =>
    by_cases hk : k < start
    · rw [List.dropWhile_cons_of_pos (by simpa using hk), ih, List.mem_cons]
      constructor
      · exact fun ⟨hn, hle⟩ ↦ ⟨.inr hn, hle⟩
      · rintro ⟨rfl | hn, hle⟩
        · omega
        · exact ⟨hn, hle⟩
    · rw [List.dropWhile_cons_of_neg (by simpa using hk)]
      refine (and_iff_left_of_imp fun hn ↦ ?_).symm
      rcases List.mem_cons.mp hn with rfl | hn
      · omega
      · have := hfirst n hn
        omega

/-- A block lies within a set of lines where all its lines are in the set. -/
theorem Block.within_iff :
    b.within lines = true ↔ ∀ n, b.contains n = true → n ∈ lines := by
  have hascending := lines.ascending.sublist
    (List.dropWhile_sublist (fun k ↦ decide (k < b.startLine)) (l := lines.toList))
  rw [Block.within, coversFrom_iff hascending fun k hk ↦
    ((mem_dropWhile_lt lines.ascending).mp hk).2]
  apply forall_congr'
  intro n
  rw [mem_dropWhile_lt lines.ascending, Block.contains_iff]
  constructor
  · intro hin hn
    exact (hin hn.1 hn.2).1
  · intro hin hstart hend
    exact ⟨hin ⟨hstart, hend⟩, hstart⟩

/-- The candidates of the base revision are the blocks whose lines were all removed, at their
first lines. -/
theorem mem_removedBlocks {c : Candidate} :
    c ∈ removedBlocks blocks lines ↔
      c.block ∈ blocks ∧ c.line = c.block.startLine ∧
        ∀ n, c.block.contains n = true → n ∈ lines := by
  rw [removedBlocks, List.mem_map]
  constructor
  · rintro ⟨b, hb, rfl⟩
    obtain ⟨hb, hwithin⟩ := List.mem_filter.mp hb
    exact ⟨hb, rfl, Block.within_iff.mp hwithin⟩
  · rintro ⟨hb, hline, hall⟩
    refine ⟨c.block, List.mem_filter.mpr ⟨hb, Block.within_iff.mpr hall⟩, ?_⟩
    rw [← hline]

/-- The candidates of the base revision stand in the order of their lines. -/
theorem pairwise_removedBlocks (h : blocks.Pairwise fun b c ↦ b.endLine < c.startLine)
    (hle : ∀ b ∈ blocks, b.startLine ≤ b.endLine) :
    (removedBlocks blocks lines).Pairwise fun c e ↦ c.line < e.line := by
  rw [removedBlocks, List.pairwise_map]
  apply (h.sublist List.filter_sublist).imp_of_mem
  intro b c hb _ hbc
  have := hle b (List.mem_filter.mp hb).1
  show b.startLine < c.startLine
  omega

end RouteWatch
