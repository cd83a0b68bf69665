import RouteWatch.Proofs.Diff.HunkTable

/-!
# Where unchanged lines come from

A line of the head revision that no hunk has changed stands in the base revision too, at a place
that the hunks before it give. From one unchanged line to the next the place goes on by one, or
else over the lines that a hunk between the two deletes.
-/

namespace RouteWatch.Diff

open RouteWatch.Text (IsLine)

/-- The line of the base revision in place of an unchanged line `n` of the head revision, given
the hunks after the lines `base` and `head`, which are in each other's place. -/
def originFrom (base head n : Int) : List Hunk → Int
  | [] => n - head + base
  | h :: hs =>
    if n < h.headFirst then n - head + base else originFrom h.baseNext h.headNext n hs

/-- The line of the base revision in place of an unchanged line of the head revision. -/
def FileDiff.origin (d : FileDiff) (n : Int) : Int := originFrom 1 1 n d.hunks

variable {d : FileDiff} {baseLines headLines : List String} {hs : List Hunk} {s : Stretch}
  {l : String} {base head n : Int}

/-! ### Lines -/

/-- A line of a stretch stands in both revisions. -/
theorem Stretch.Kept.isLine (hs : s.Kept baseLines headLines) (hbase : 1 ≤ s.base)
    (hhead : 1 ≤ s.head) (hfirst : s.head ≤ n) (hnext : n < s.headNext)
    (hl : IsLine headLines n l) : IsLine baseLines (n - s.head + s.base) l := by
  obtain ⟨k, rfl, hk⟩ := hl
  have hlength := hs.length
  have hsame := congrArg (·[k - (s.head - 1).toNat]?) hs.same
  simp only [Text.linesFrom, List.getElem?_take, List.getElem?_drop] at hsame
  rw [if_pos (by omega), if_pos (by omega),
    show (s.head - 1).toNat + (k - (s.head - 1).toNat) = k by omega, hk] at hsame
  exact ⟨_, by omega, hsame⟩

/-- What the hunks after two lines that are in each other's place are known to be: they stand
apart, and the stretches around them are the same in both revisions. -/
private structure Follow (baseLines headLines : List String) (base head : Int)
    (hs : List Hunk) : Prop where
  one_le_base : 1 ≤ base
  one_le_head : 1 ≤ head
  base_count : ∀ h ∈ hs, 0 ≤ h.baseCount
  head_count : ∀ h ∈ hs, 0 ≤ h.headCount
  apart : hs.Pairwise fun h k ↦ h.baseNext < k.baseFirst ∧ h.headNext < k.headFirst
  kept : ∀ s ∈ stretchesFrom baseLines.length headLines.length base head hs,
    s.Kept baseLines headLines

private theorem FileDiff.Partitions.follow (hd : d.Partitions baseLines headLines) :
    Follow baseLines headLines 1 1 d.hunks :=
  ⟨by omega, by omega, hd.base_count, hd.head_count, hd.apart, hd.kept⟩

private theorem Follow.first {h : Hunk} (hf : Follow baseLines headLines base head (h :: hs)) :
    Stretch.Kept baseLines headLines ⟨base, h.baseFirst, head, h.headFirst⟩ :=
  hf.kept _ (List.mem_cons_self ..)

private theorem Follow.tail {h : Hunk} (hf : Follow baseLines headLines base head (h :: hs)) :
    Follow baseLines headLines h.baseNext h.headNext hs := by
  obtain ⟨hle, hlength, -⟩ := hf.first
  have hbase := hf.one_le_base
  have hhead := hf.one_le_head
  have hbaseCount := hf.base_count h (List.mem_cons_self ..)
  have hheadCount := hf.head_count h (List.mem_cons_self ..)
  dsimp only at hle hlength
  refine ⟨?_, ?_, ?_, ?_, hf.apart.of_cons, ?_⟩
  · rw [Hunk.baseNext]
    omega
  · rw [Hunk.headNext]
    omega
  · exact fun k hk ↦ hf.base_count k (List.mem_cons_of_mem _ hk)
  · exact fun k hk ↦ hf.head_count k (List.mem_cons_of_mem _ hk)
  · exact fun s hs ↦ hf.kept s (List.mem_cons_of_mem _ hs)

private theorem Follow.isLine_originFrom (hf : Follow baseLines headLines base head hs)
    (hn : head ≤ n) (hunchanged : ∀ h ∈ hs, ¬(h.headFirst ≤ n ∧ n < h.headNext))
    (hl : IsLine headLines n l) : IsLine baseLines (originFrom base head n hs) l := by
  induction hs generalizing base head with
  | nil =>
    have hlast := hl.le.2
    exact (hf.kept _ (List.mem_singleton_self _)).isLine hf.one_le_base hf.one_le_head hn
      (by dsimp only; omega) hl
  | cons h hs ih =>
    obtain ⟨hh, hhs⟩ := List.forall_mem_cons.mp hunchanged
    rw [originFrom]
    split
    next hlt => exact hf.first.isLine hf.one_le_base hf.one_le_head hn hlt hl
    next hge => exact ih hf.tail (by omega) hhs

/-- An unchanged line stands in the base revision. -/
theorem FileDiff.Partitions.isLine_origin (hd : d.Partitions baseLines headLines)
    (hn : n ∉ d.changed) (hl : IsLine headLines n l) : IsLine baseLines (d.origin n) l :=
  hd.follow.isLine_originFrom hl.le.1 (fun h hh hin ↦ hn ((hd.changed n).mpr ⟨h, hh, hin⟩)) hl

/-! ### From one unchanged line to the next -/

/-- At the line after its head range a hunk is over in the base revision too. -/
private theorem Follow.originFrom_headNext {h : Hunk}
    (hf : Follow baseLines headLines base head (h :: hs)) :
    originFrom h.baseNext h.headNext h.headNext hs = h.baseNext := by
  cases hs with
  | nil =>
    rw [originFrom]
    omega
  | cons k ks =>
    have := ((List.pairwise_cons.mp hf.apart).1 k (List.mem_cons_self ..)).2
    rw [originFrom, if_pos this]
    omega

private theorem Follow.originFrom_add_one_cases (hf : Follow baseLines headLines base head hs)
    (hn : ∀ h ∈ hs, ¬(h.headFirst ≤ n ∧ n < h.headNext))
    (hnext : ∀ h ∈ hs, ¬(h.headFirst ≤ n + 1 ∧ n + 1 < h.headNext)) :
    originFrom base head (n + 1) hs = originFrom base head n hs + 1 ∨
      ∃ h ∈ hs, h.headCount = 0 ∧ h.headFirst = n + 1 ∧
        h.baseFirst = originFrom base head n hs + 1 ∧
        h.baseNext = originFrom base head (n + 1) hs := by
  induction hs generalizing base head with
  | nil =>
    left
    simp only [originFrom]
    omega
  | cons h hs ih =>
    obtain ⟨hh, hhs⟩ := List.forall_mem_cons.mp hn
    obtain ⟨hh', hhs'⟩ := List.forall_mem_cons.mp hnext
    obtain ⟨-, hlength, -⟩ := hf.first
    have hcount := hf.head_count h (List.mem_cons_self ..)
    have hheadNext : h.headNext = h.headFirst + h.headCount := rfl
    dsimp only at hlength
    by_cases hboth : n + 1 < h.headFirst
    · left
      rw [originFrom, originFrom, if_pos hboth, if_pos (by omega)]
      omega
    · by_cases hat : n < h.headFirst
      · -- The hunk begins between the two lines, and has none of the head revision.
        have hend : h.headNext = n + 1 := by omega
        have horigin := hf.originFrom_headNext
        rw [hend] at horigin
        refine .inr ⟨h, List.mem_cons_self .., by omega, by omega, ?_, ?_⟩
        · rw [originFrom, if_pos hat]
          omega
        · rw [originFrom, if_neg hboth, hend, horigin]
      · rw [originFrom, originFrom, if_neg hboth, if_neg hat]
        rcases ih hf.tail hhs hhs' with heq | ⟨k, hk, hcases⟩
        · exact .inl heq
        · exact .inr ⟨k, List.mem_cons_of_mem _ hk, hcases⟩

/-- Between two unchanged lines that follow on each other the base revision has nothing, or the
lines of a hunk that only deletes. -/
theorem FileDiff.Partitions.origin_add_one_cases (hd : d.Partitions baseLines headLines)
    (hn : n ∉ d.changed) (hnext : n + 1 ∉ d.changed) :
    d.origin (n + 1) = d.origin n + 1 ∨
      ∃ h ∈ d.hunks, h.headCount = 0 ∧ h.headFirst = n + 1 ∧
        h.baseFirst = d.origin n + 1 ∧ h.baseNext = d.origin (n + 1) :=
  hd.follow.originFrom_add_one_cases
    (fun h hh hin ↦ hn ((hd.changed n).mpr ⟨h, hh, hin⟩))
    (fun h hh hin ↦ hnext ((hd.changed (n + 1)).mpr ⟨h, hh, hin⟩))

/-- Of two unchanged lines that follow on each other the second one stands later in the base
revision, and what stands between them was removed. -/
theorem FileDiff.Partitions.origin_lt_add_one (hd : d.Partitions baseLines headLines)
    (hn : n ∉ d.changed) (hnext : n + 1 ∉ d.changed) :
    d.origin n < d.origin (n + 1) ∧
      ∀ k, d.origin n < k → k < d.origin (n + 1) → k ∈ d.removed := by
  rcases hd.origin_add_one_cases hn hnext with heq | ⟨h, hh, hhead, -, hfirst, hlast⟩
  · exact ⟨by omega, fun k hk hk' ↦ by omega⟩
  · have hcount := hd.base_count h hh
    have hbase : h.baseNext = h.baseFirst + h.baseCount := rfl
    refine ⟨by omega, fun k hk hk' ↦ (hd.removed k).mpr ⟨h, hh, by omega, by omega⟩⟩

/-- Of two lines of an unchanged stretch of the head revision the later one stands later in the
base revision too, and what stands between them was removed or comes from between them. -/
theorem FileDiff.Partitions.origin_lt {m : Int} (hd : d.Partitions baseLines headLines)
    (hlt : m < n) (hunchanged : ∀ j, m ≤ j → j ≤ n → j ∉ d.changed) :
    d.origin m < d.origin n ∧ ∀ k, d.origin m < k → k < d.origin n →
      k ∈ d.removed ∨ ∃ j, m < j ∧ j < n ∧ d.origin j = k := by
  obtain ⟨size, rfl⟩ : ∃ size : Nat, n = m + size + 1 := ⟨(n - m - 1).toNat, by omega⟩
  have hstep (j : Int) (hm : m ≤ j) (hj : j < m + size + 1) :=
    hd.origin_lt_add_one (hunchanged j hm (by omega)) (hunchanged (j + 1) (by omega) (by omega))
  clear hunchanged hlt
  induction size with
  | zero =>
    obtain ⟨hless, hbetween⟩ := hstep m (by omega) (by omega)
    rw [Int.natCast_zero, Int.add_zero]
    exact ⟨hless, fun k hk hk' ↦ .inl (hbetween k hk hk')⟩
  | succ size ih =>
    obtain ⟨hless, hbetween⟩ := ih fun j hm hj ↦ hstep j hm (by omega)
    obtain ⟨hless', hbetween'⟩ := hstep (m + size + 1) (by omega) (by omega)
    rw [Int.natCast_add, Int.natCast_one, ← Int.add_assoc]
    refine ⟨by omega, fun k hk hk' ↦ ?_⟩
    rcases Int.lt_trichotomy k (d.origin (m + size + 1)) with hlt | heq | hgt
    · rcases hbetween k hk hlt with hremoved | ⟨j, hm, hj, horigin⟩
      · exact .inl hremoved
      · exact .inr ⟨j, hm, by omega, horigin⟩
    · exact .inr ⟨m + size + 1, by omega, by omega, heq.symm⟩
    · exact .inl (hbetween' k hgt hk')

/-- In an unchanged stretch of the head revision within which no hunk only deletes, all lines
stand equally far from their places in the base revision. -/
theorem FileDiff.Partitions.origin_sub_eq {m : Int} (hd : d.Partitions baseLines headLines)
    (hle : m ≤ n) (hunchanged : ∀ j, m ≤ j → j ≤ n → j ∉ d.changed)
    (hnone : ∀ h ∈ d.hunks, h.headCount = 0 → ¬(m < h.headFirst ∧ h.headFirst ≤ n)) :
    d.origin n - n = d.origin m - m := by
  obtain ⟨size, rfl⟩ : ∃ size : Nat, n = m + size := ⟨(n - m).toNat, by omega⟩
  have hstep (j : Int) (hm : m ≤ j) (hj : j < m + size) : d.origin (j + 1) = d.origin j + 1 := by
    rcases hd.origin_add_one_cases (hunchanged j hm (by omega))
        (hunchanged (j + 1) (by omega) (by omega)) with heq | ⟨h, hh, hcount, hfirst, -⟩
    · exact heq
    · exact absurd ⟨by omega, by omega⟩ (hnone h hh hcount)
  clear hunchanged hnone hle
  induction size with
  | zero => rw [Int.natCast_zero, Int.add_zero]
  | succ size ih =>
    have hbefore := ih fun j hm hj ↦ hstep j hm (by omega)
    have hlast := hstep (m + size) (by omega) (by omega)
    rw [Int.natCast_add, Int.natCast_one, ← Int.add_assoc]
    omega

end RouteWatch.Diff
