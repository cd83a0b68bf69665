import RouteWatch.Proofs.Diff.HunkTable

/-!
# Where changed lines count as standing

A changed line counts as standing in the base revision as many lines after the start of the base
range as it stands after the start of the head range, however long both ranges are. Lines of
different hunks may so come to stand at the same place.
-/

namespace RouteWatch.Diff

variable {d : FileDiff} {base head : List String} {k : Hunk} {n : Int}

/-- A line is carried back by the last hunk that begins at it or before it. -/
theorem baseLine?_append {before after : List Hunk} (hbefore : ∀ j ∈ before, j.headStart ≤ n)
    (hk : k.headStart ≤ n) (hafter : ∀ j ∈ after, n < j.headStart) :
    baseLine? (before ++ k :: after) n = some (n - k.headStart + k.baseStart) := by
  have htail : after.takeWhile (fun j ↦ decide (j.headStart ≤ n)) = [] := by
    cases after with
    | nil => rfl
    | cons j js =>
      have := hafter j (List.mem_cons_self ..)
      exact List.takeWhile_cons_of_neg (by simpa using this)
  rw [baseLine?, List.takeWhile_append_of_pos (by simpa using hbefore),
    List.takeWhile_cons_of_pos (by simpa using hk), htail, List.getLast?_concat]
  rfl

/-- Every hunk begins in the base revision, and one that begins before its first line begins with
the first line of the head revision. -/
private theorem FileDiff.Partitions.baseStart (hd : d.Partitions base head) (hk : k ∈ d.hunks) :
    0 < k.baseStart ∨ k.baseStart = 0 ∧ k.headStart ≤ 1 := by
  have hkept := hd.kept
  have hascending := hd.ascending
  cases hhunks : d.hunks with
  | nil =>
    rw [hhunks] at hk
    exact absurd hk List.not_mem_nil
  | cons j js =>
    have hzero : 0 < j.baseStart ∨ j.baseStart = 0 ∧ j.headStart ≤ 1 := by
      rw [hhunks] at hkept
      obtain ⟨hle, hlength, -⟩ := hkept _ (List.mem_cons_self ..)
      dsimp only [Hunk.baseFirst, Hunk.headFirst, firstLine] at hle hlength
      split at hle <;> split at hlength <;> omega
    rw [hhunks] at hk hascending
    rcases List.mem_cons.mp hk with rfl | hk
    · exact hzero
    · have := (List.pairwise_cons.mp hascending).1 k hk
      omega

/-- The place of a changed line in the base revision. The first line of the head revision has
its own number. -/
theorem FileDiff.Partitions.anchorLine_eq (hd : d.Partitions base head) (hk : k ∈ d.hunks)
    (hfirst : k.headFirst ≤ n) (hnext : n < k.headNext) (hn : 1 < n) :
    anchorLine d.hunks n = n - k.headStart + k.baseStart := by
  have hstart : k.headStart ≤ n := by
    unfold Hunk.headFirst firstLine at hfirst
    split at hfirst <;> omega
  have hbase := hd.baseStart hk
  have hascending := hd.ascending
  have hapart := hd.apart
  obtain ⟨before, after, hhunks⟩ := List.append_of_mem hk
  rw [hhunks, List.pairwise_append] at hascending hapart
  have hline : baseLine? d.hunks n = some (n - k.headStart + k.baseStart) := by
    rw [hhunks]
    apply baseLine?_append
    · intro j hj
      have := (hascending.2.2 j hj k (List.mem_cons_self ..)).2
      omega
    · exact hstart
    · intro j hj
      have hkj := ((List.pairwise_cons.mp hapart.2.1).1 j hj).2
      rw [Hunk.headFirst, firstLine] at hkj
      split at hkj <;> omega
  rw [anchorLine, hline]
  dsimp only
  rw [if_neg (by omega)]

end RouteWatch.Diff
