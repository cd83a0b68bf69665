import RouteWatch.Proofs.Diff.ReadBack

/-!
# The hunks of a diff partition both revisions

The hunks that are read from a diff without context cut both revisions into ranges that take
each other's place and stretches that stay. The ranges stand in order with at least one line
between two of them; each stretch has the same lines in both revisions; and the changed and the
removed lines are those of the ranges.
-/

namespace RouteWatch.Diff

open RouteWatch.Text (closedLines lines linesFrom)

/-! ### Ranges and stretches -/

/-- The number of the first line of a range. A range without a line begins after the line that
its header gives. -/
def firstLine (start count : Int) : Int := if count = 0 then start + 1 else start

namespace Hunk

/-- The first line of the base range. -/
def baseFirst (h : Hunk) : Int := firstLine h.baseStart h.baseCount

/-- The line after the base range. -/
def baseNext (h : Hunk) : Int := h.baseFirst + h.baseCount

/-- The first line of the head range. -/
def headFirst (h : Hunk) : Int := firstLine h.headStart h.headCount

/-- The line after the head range. -/
def headNext (h : Hunk) : Int := h.headFirst + h.headCount

end Hunk

/-- Lines that no hunk concerns: in each revision the first of them and the line after them. -/
structure Stretch where
  base : Int
  baseNext : Int
  head : Int
  headNext : Int

/-- The stretches before, between and after hunks, where the first begins at the given lines and
the last ends with the revisions. -/
def stretchesFrom (sizeBase sizeHead : Nat) (base head : Int) : List Hunk → List Stretch
  | [] => [⟨base, sizeBase + 1, head, sizeHead + 1⟩]
  | h :: hs => ⟨base, h.baseFirst, head, h.headFirst⟩ ::
      stretchesFrom sizeBase sizeHead h.baseNext h.headNext hs

/-- A stretch has as many lines in the base revision as in the head revision, and the same. -/
structure Stretch.Kept (base head : List String) (s : Stretch) : Prop where
  base_le : s.base ≤ s.baseNext
  length : s.baseNext - s.base = s.headNext - s.head
  same : linesFrom base s.base s.baseNext = linesFrom head s.head s.headNext

/-- The diff of a file partitions the lines of both revisions. -/
structure FileDiff.Partitions (d : FileDiff) (base head : List String) : Prop where
  base_count : ∀ h ∈ d.hunks, 0 ≤ h.baseCount
  head_count : ∀ h ∈ d.hunks, 0 ≤ h.headCount
  not_empty : ∀ h ∈ d.hunks, ¬(h.baseCount = 0 ∧ h.headCount = 0)
  ascending : d.hunks.Pairwise fun h k ↦ h.baseStart < k.baseStart ∧ h.headStart < k.headStart
  apart : d.hunks.Pairwise fun h k ↦ h.baseNext < k.baseFirst ∧ h.headNext < k.headFirst
  kept : ∀ s ∈ stretchesFrom base.length head.length 1 1 d.hunks, s.Kept base head
  base_within : ∀ h ∈ d.hunks, h.baseCount ≠ 0 → 1 ≤ h.baseFirst ∧ h.baseNext ≤ base.length + 1
  head_within : ∀ h ∈ d.hunks, h.headCount ≠ 0 → 1 ≤ h.headFirst ∧ h.headNext ≤ head.length + 1
  changed : ∀ n, n ∈ d.changed ↔ ∃ h ∈ d.hunks, h.headFirst ≤ n ∧ n < h.headNext
  removed : ∀ n, n ∈ d.removed ↔ ∃ h ∈ d.hunks, h.baseFirst ≤ n ∧ n < h.baseNext

/-! ### Hunks of changes -/

private theorem firstLine_startNumber (start stop : Int) :
    firstLine (startNumber start stop) (stop - start) = start + 1 := by
  unfold firstLine startNumber
  split <;> split <;> omega

@[simp] theorem baseFirst_ofChange (e : Edit) : (Hunk.ofChange e).baseFirst = e.left + 1 :=
  firstLine_startNumber e.left e.leftEnd

@[simp] theorem headFirst_ofChange (e : Edit) : (Hunk.ofChange e).headFirst = e.right + 1 :=
  firstLine_startNumber e.right e.rightEnd

@[simp] theorem baseNext_ofChange (e : Edit) : (Hunk.ofChange e).baseNext = e.leftEnd + 1 := by
  rw [Hunk.baseNext, baseFirst_ofChange, Hunk.ofChange]
  dsimp only
  omega

@[simp] theorem headNext_ofChange (e : Edit) : (Hunk.ofChange e).headNext = e.rightEnd + 1 := by
  rw [Hunk.headNext, headFirst_ofChange, Hunk.ofChange]
  dsimp only
  omega

/-- The lines of a range are those from its first line on, whether it has any or not. -/
private theorem mem_rangeLines_firstLine {n start count : Int} :
    n ∈ rangeLines start count ↔ firstLine start count ≤ n ∧ n < firstLine start count + count := by
  rw [mem_rangeLines]
  unfold firstLine
  split <;> omega

/-- The changed lines of some hunks are the lines of their head ranges. -/
theorem mem_changed_ofHunks {path : String} {hs : List Hunk} {n : Int} :
    n ∈ (FileDiff.ofHunks path hs).changed ↔ ∃ h ∈ hs, h.headFirst ≤ n ∧ n < h.headNext := by
  rw [FileDiff.ofHunks, LineSet.mem_ofList, List.mem_flatMap]
  simp only [Hunk.headLines, mem_rangeLines_firstLine]
  rfl

/-- The removed lines of some hunks are the lines of their base ranges. -/
theorem mem_removed_ofHunks {path : String} {hs : List Hunk} {n : Int} :
    n ∈ (FileDiff.ofHunks path hs).removed ↔ ∃ h ∈ hs, h.baseFirst ≤ n ∧ n < h.baseNext := by
  rw [FileDiff.ofHunks, LineSet.mem_ofList, List.mem_flatMap]
  simp only [Hunk.baseLines, mem_rangeLines_firstLine]
  rfl

/-! ### Kept stretches -/

private theorem take_drop_eq {xs ys : List String} {p q n : Nat}
    (h : ∀ k < n, xs[p + k]? = ys[q + k]?) : (xs.drop p).take n = (ys.drop q).take n := by
  apply List.ext_getElem?
  intro k
  rw [List.getElem?_take, List.getElem?_take]
  split
  · next hk =>
    rw [List.getElem?_drop, List.getElem?_drop]
    exact h k hk
  · rfl

/-- Between the positions `p` and `i` of the base revision and `q` and `j` of the head revision
stand the same lines. -/
private structure SameLines (base head : List String) (p i q j : Nat) : Prop where
  left_le : p ≤ i
  length : i - p = j - q
  right_le : q ≤ j
  same : ∀ k < i - p, base[p + k]? = head[q + k]?

variable {base head : List String} {p i q j : Nat}

private theorem SameLines.kept (h : SameLines base head p i q j) :
    Stretch.Kept base head ⟨p + 1, i + 1, q + 1, j + 1⟩ := by
  obtain ⟨hp, hlength, hq, hsame⟩ := h
  refine ⟨by dsimp only; omega, by dsimp only; omega, ?_⟩
  simp only [linesFrom]
  rw [show ((p : Int) + 1 - 1).toNat = p by omega, show ((q : Int) + 1 - 1).toNat = q by omega,
    show ((i : Int) + 1 - (p + 1)).toNat = i - p by omega,
    show ((j : Int) + 1 - (q + 1)).toNat = i - p by omega]
  exact take_drop_eq hsame

private theorem SameLines.refl : SameLines base head i i j j :=
  ⟨Nat.le_refl _, by omega, Nat.le_refl _, fun k hk ↦ absurd hk (by omega)⟩

/-- A stretch that ends where a common run begins goes on to the end of the run. -/
private theorem SameLines.append_run {r : Run} (h : SameLines base head p r.left q r.right)
    (hr : r.Agrees base.toArray head.toArray) :
    SameLines base head p (r.left + r.size) q (r.right + r.size) := by
  obtain ⟨hp, hlength, hq, hsame⟩ := h
  refine ⟨by omega, by omega, by omega, ?_⟩
  intro k hk
  by_cases hlt : k < r.left - p
  · exact hsame k hlt
  · have := hr (k - (r.left - p)) (by omega)
    simp only [List.getElem?_toArray] at this
    rw [show r.left + (k - (r.left - p)) = p + k by omega,
      show r.right + (k - (r.left - p)) = q + k by omega] at this
    exact this

/-- The induction is on the runs: a stretch is closed by the change after it, and where there is
none between two runs, it goes on through both. -/
private theorem kept_of_mem_stretchesFrom {rs : List Run} (h : SameLines base head p i q j)
    (hrs : RunsBetween base.toArray head.toArray base.length head.length i j rs) :
    ∀ s ∈ stretchesFrom base.length head.length (p + 1) (q + 1)
      ((changesOf (editsFrom base.length head.length i j rs)).map Hunk.ofChange),
      s.Kept base head := by
  induction hrs generalizing p q with
  | nil hi hj =>
    rcases changesOf_gap_cases hi hj with ⟨hgap, rfl, rfl⟩ | ⟨change, -, hgap⟩
    · simp only [editsFrom, hgap, List.map_nil, stretchesFrom, List.mem_singleton, forall_eq]
      exact h.kept
    · simp only [editsFrom, hgap, List.map_cons, List.map_nil, stretchesFrom, List.mem_cons,
        List.not_mem_nil, or_false, forall_eq_or_imp, forall_eq, baseFirst_ofChange,
        headFirst_ofChange, baseNext_ofChange, headNext_ofChange]
      exact ⟨h.kept, SameLines.refl.kept⟩
  | cons hi hj _ hagrees _ ih =>
    rw [editsFrom, changesOf_append, changesOf_keep]
    rcases changesOf_gap_cases hi hj with ⟨hgap, rfl, rfl⟩ | ⟨change, -, hgap⟩
    · rw [hgap, List.nil_append]
      exact ih (h.append_run hagrees)
    · rw [hgap, List.singleton_append, List.map_cons, stretchesFrom]
      simp only [List.mem_cons, forall_eq_or_imp, baseFirst_ofChange, headFirst_ofChange,
        baseNext_ofChange, headNext_ofChange]
      exact ⟨h.kept, ih (SameLines.refl.append_run hagrees)⟩

/-! ### The hunk table -/

/-- The common runs of two texts, which are found with the line ends in place, are runs of their
lines. -/
theorem runsBetween_lines (base head : String) :
    RunsBetween (lines base).toArray (lines head).toArray (lines base).length (lines head).length
      0 0 (commonRuns (closedLines base) (closedLines head)) := by
  have h := commonRuns_between (closedLines base) (closedLines head)
  rw [Text.length_closedLines, Text.length_closedLines] at h
  apply h.imp
  intro i j hij
  simp only [List.getElem?_toArray] at hij ⊢
  exact Text.lines_getElem?_eq hij

/-- Hunks of changes partition two texts where the changes lie within both and apart from each
other, and what they leave out is the same. -/
private theorem partitions_ofHunks {path : String} {es : List Edit}
    (hwithin : ∀ e ∈ es, e.Within base.length head.length)
    (hapart : es.Pairwise fun e f ↦ e.leftEnd < f.left ∧ e.rightEnd < f.right)
    (hkept : ∀ s ∈ stretchesFrom base.length head.length 1 1 (es.map Hunk.ofChange),
      s.Kept base head) :
    (FileDiff.ofHunks path (es.map Hunk.ofChange)).Partitions base head := by
  refine ⟨?_, ?_, ?_, ?_, ?_, hkept, ?_, ?_, fun n ↦ mem_changed_ofHunks,
    fun n ↦ mem_removed_ofHunks⟩
  all_goals simp only [FileDiff.ofHunks, List.forall_mem_map, List.pairwise_map,
    baseFirst_ofChange, baseNext_ofChange, headFirst_ofChange, headNext_ofChange]
  · intro e he
    have := (hwithin e he).left_le
    simp only [Hunk.ofChange]
    omega
  · intro e he
    have := (hwithin e he).right_le
    simp only [Hunk.ofChange]
    omega
  · intro e he
    have := (hwithin e he).not_empty
    simp only [Hunk.ofChange]
    omega
  · refine hapart.imp_of_mem fun {e f} he hf hef ↦ ?_
    have := (hwithin e he).left_le
    have := (hwithin e he).right_le
    simp only [Hunk.ofChange, startNumber]
    constructor
    · split <;> split <;> omega
    · split <;> split <;> omega
  · exact hapart.imp fun hef ↦ by omega
  · intro e he _
    have := (hwithin e he).left_nonneg
    have := (hwithin e he).leftEnd_le
    omega
  · intro e he _
    have := (hwithin e he).right_nonneg
    have := (hwithin e he).rightEnd_le
    omega

private theorem partitions_changes (base head path : String) :
    (FileDiff.ofHunks path ((changes (closedLines base) (closedLines head)).map
      Hunk.ofChange)).Partitions (lines base) (lines head) := by
  apply partitions_ofHunks
  · intro e he
    have := within_of_mem_changes he
    rwa [Text.length_closedLines, Text.length_closedLines] at this
  · exact pairwise_changes (closedLines base) (closedLines head)
  · rw [changes, edits, Text.length_closedLines, Text.length_closedLines]
    exact kept_of_mem_stretchesFrom SameLines.refl (runsBetween_lines base head)

/-- Where a diff without context is read, its hunks partition both revisions. -/
theorem partitions_of_ofText_unified {base head path : String} {d : FileDiff}
    (hpath : '\n' ∉ path.toList) (h : FileDiff.ofText (unified base head path 0) path = .ok d) :
    d.Partitions (lines base) (lines head) := by
  obtain ⟨hs, hhs, rfl⟩ := except_map_eq_ok_iff.mp h
  rw [eq_map_ofChange_of_hunksOf hpath hhs]
  exact partitions_changes base head path

/-- A number below a power of ten is below every higher one. -/
theorem lt_pow_of_le {n j k : Nat} (hjk : j ≤ k) (h : n < Nat.pow 10 j) : n < Nat.pow 10 k :=
  Nat.lt_of_lt_of_le h (Nat.pow_le_pow_right (by decide) hjk)

/-- A number of one digit is below every power of ten but one. -/
theorem lt_pow_of_lt_ten {n k : Nat} (hk : k ≠ 0) (h : n < 10) : n < Nat.pow 10 k :=
  Nat.lt_of_lt_of_le h (Nat.le_self_pow hk 10)

/-- The diff of two revisions without context can be read, and its hunks partition the lines of
both. Revisions of so many lines that their numbers have too many digits are left out. -/
theorem unified_partitions_revisions (base head path : String) (hpath : '\n' ∉ path.toList)
    (hbase : (lines base).length < Nat.pow 10 4299)
    (hhead : (lines head).length < Nat.pow 10 4299) :
    ∃ d, FileDiff.ofText (unified base head path 0) path = .ok d ∧
      d.Partitions (lines base) (lines head) := by
  have hlimit : 4299 ≤ Text.digitLimit := by decide
  -- the power is left as it is: nothing may evaluate it
  generalize 4299 = k at hlimit hbase hhead
  have hread := hunksOf_unified_of_lt hpath (lt_pow_of_le hlimit hbase)
    (lt_pow_of_le hlimit hhead)
  have htext := congrArg (Except.map (FileDiff.ofHunks path)) hread
  exact ⟨_, htext, partitions_changes base head path⟩

/-- A line is replaced in the middle and one is added after the last, which has no line end. -/
theorem unified_partitions_revisions_replaced_added :
    '\n' ∉ "service/routes/x.js".toList ∧ (lines "a\nb\nc\n").length < Nat.pow 10 4299 ∧
      (lines "a\nB\nc\nd").length < Nat.pow 10 4299 ∧
      ∃ d, FileDiff.ofText (unified "a\nb\nc\n" "a\nB\nc\nd" "service/routes/x.js" 0)
        "service/routes/x.js" = .ok d ∧
          d.Partitions (lines "a\nb\nc\n") (lines "a\nB\nc\nd") := by
  have hlimit : 4299 ≠ 0 := by decide
  have hpath : '\n' ∉ "service/routes/x.js".toList := by decide
  have hbase : (lines "a\nb\nc\n").length < Nat.pow 10 4299 := by
    generalize 4299 = k at hlimit ⊢
    exact lt_pow_of_lt_ten hlimit (by decide)
  have hhead : (lines "a\nB\nc\nd").length < Nat.pow 10 4299 := by
    generalize 4299 = k at hlimit ⊢
    exact lt_pow_of_lt_ten hlimit (by decide)
  exact ⟨hpath, hbase, hhead, unified_partitions_revisions _ _ _ hpath hbase hhead⟩

end RouteWatch.Diff
