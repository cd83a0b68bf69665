import RouteWatch.Proofs.Diff.HunkTable

/-!
# Lines that are kept

A line of the base revision that no hunk removes lies in one of the stretches that stay, so that
the head revision has it too. Hence what the head revision does not have was removed.
-/

namespace RouteWatch.Diff

open RouteWatch.Text (IsLine linesFrom)

variable {d : FileDiff} {base head : List String} {hunks : List Hunk} {l : String} {n : Int}

/-- A line that is not in a base range lies in one of the stretches around the ranges. -/
private theorem exists_stretch {sizeBase sizeHead : Nat} {first firstHead : Int}
    (hfirst : first ≤ n) (hlast : n ≤ sizeBase)
    (hnone : ∀ h ∈ hunks, ¬(h.baseFirst ≤ n ∧ n < h.baseNext)) :
    ∃ s ∈ stretchesFrom sizeBase sizeHead first firstHead hunks, s.base ≤ n ∧ n < s.baseNext := by
  induction hunks generalizing first firstHead with
  | nil => exact ⟨_, List.mem_singleton_self _, hfirst, by dsimp only; omega⟩
  | cons h hs ih =>
    obtain ⟨hh, hhs⟩ := List.forall_mem_cons.mp hnone
    by_cases hbefore : n < h.baseFirst
    · exact ⟨_, List.mem_cons_self .., hfirst, hbefore⟩
    · have hnext : h.baseNext ≤ n := by omega
      obtain ⟨s, hs, hin⟩ := @ih _ h.headNext hnext hhs
      exact ⟨s, List.mem_cons_of_mem _ hs, hin⟩

/-- A line lies in a range of lines by its number. -/
private theorem mem_linesFrom {ls : List String} {first next : Int} (hl : IsLine ls n l)
    (hfirst : first ≤ n) (hnext : n < next) : l ∈ linesFrom ls first next := by
  obtain ⟨k, rfl, hk⟩ := hl
  apply List.mem_of_getElem? (i := k - (first - 1).toNat)
  rw [linesFrom, List.getElem?_take, if_pos (by omega), List.getElem?_drop,
    show (first - 1).toNat + (k - (first - 1).toNat) = k by omega, hk]

/-- A line of the base revision that was not removed stands in the head revision too. -/
theorem FileDiff.Partitions.mem_head (hd : d.Partitions base head) (hl : IsLine base n l)
    (hn : n ∉ d.removed) : l ∈ head := by
  have hnone (h : Hunk) (hh : h ∈ d.hunks) : ¬(h.baseFirst ≤ n ∧ n < h.baseNext) :=
    fun hin ↦ hn ((hd.removed n).mpr ⟨h, hh, hin⟩)
  obtain ⟨s, hs, hbase, hnext⟩ := exists_stretch hl.le.1 hl.le.2 hnone
  have hmem := mem_linesFrom hl hbase hnext
  rw [(hd.kept s hs).same] at hmem
  exact List.mem_of_mem_drop (List.mem_of_mem_take hmem)

end RouteWatch.Diff
