import Mathlib.Data.List.Count
import Mathlib.Data.List.NodupEquivFin
import RouteWatch.Proofs.Diff.Origin

/-!
# Texts to which lines are added

When lines are added to a text in which every line then stands only once, the search for common
runs finds each line of the text, as a region that holds a line in common has a run. So the diff
names the lines that were added, and no other.
-/

namespace RouteWatch.Diff

open RouteWatch.Text (IsLine closedLines lines)

variable {a b : List String} {region : Region} {f : Nat → Nat}

/-! ### What the search for the longest run finds -/

private theorem size_le_foldl_better (best : Run) (i : Nat) (row : Row) :
    best.size ≤ (row.foldl (fun best entry ↦ better best i entry) best).size := by
  induction row generalizing best with
  | nil => exact Nat.le_refl _
  | cons entry row ih => exact Nat.le_trans (size_le_better best i entry).1 (ih _)

private theorem size_le_bestRun (region : Region) (i : Nat) (before : Row) (best : Run)
    (rows : List (List Nat)) : best.size ≤ (bestRun region i before best rows).size := by
  induction rows generalizing i before best with
  | nil => exact Nat.le_refl _
  | cons js rows ih => exact Nat.le_trans (size_le_foldl_better best i _) (ih _ _ _)

private theorem runLength_pos (before : Row) (j : Nat) : 0 < runLength before j := by
  cases j with
  | zero => exact Nat.one_pos
  | succ j => exact Nat.succ_pos _

/-- A line that has an equal in the region makes the run that is found longer than none. -/
private theorem bestRun_size_pos {i j : Nat} {before : Row} {best : Run} {js : List Nat}
    {rows : List (List Nat)} (hj : j ∈ js) (hright : region.right ≤ j)
    (hrightEnd : j < region.rightEnd) :
    0 < (bestRun region i before best (js :: rows)).size := by
  have hfound : j ∈ js.filter fun j ↦ region.right ≤ j && j < region.rightEnd := by
    rw [List.mem_filter]
    exact ⟨hj, by simp [hright, hrightEnd]⟩
  refine Nat.lt_of_lt_of_le ?_ (size_le_bestRun region (i + 1) _ _ rows)
  obtain ⟨xs, ys, hsplit⟩ := List.append_of_mem hfound
  rw [hsplit, nextRow, List.map_append, List.map_cons, List.foldl_append, List.foldl_cons]
  refine Nat.lt_of_lt_of_le ?_ (size_le_foldl_better _ i _)
  exact Nat.lt_of_lt_of_le (runLength_pos before j) (size_le_better _ i (j, runLength before j)).2

private theorem size_le_extendBack (x y : Array String) (region : Region) (i j size : Nat) :
    size ≤ (extendBack x y region i j size).size := by
  fun_induction extendBack x y region i j size with
  | case1 i j size _ ih => exact Nat.le_of_succ_le ih
  | case2 => exact Nat.le_refl _
  | case3 => exact Nat.le_refl _

private theorem size_le_extendForward (x y : Array String) (region : Region) (i j fuel size : Nat) :
    size ≤ extendForward x y region i j fuel size := by
  induction fuel generalizing size with
  | zero => exact Nat.le_refl _
  | succ fuel ih =>
    rw [extendForward]
    split
    · exact Nat.le_of_succ_le (ih _)
    · exact Nat.le_refl _

/-- A region whose first line has an equal in it has a run. -/
theorem Pairing.longest_size_pos {p : Pairing} {js : List Nat} {j : Nat}
    (hleft : region.left < region.leftEnd) (hjs : p.anchors[region.left]? = some js)
    (hj : j ∈ js) (hright : region.right ≤ j) (hrightEnd : j < region.rightEnd) :
    0 < (p.longest region).size := by
  refine Nat.lt_of_lt_of_le ?_ (size_le_extendForward ..)
  refine Nat.lt_of_lt_of_le ?_ (size_le_extendBack ..)
  obtain ⟨hlt, hget⟩ := List.getElem?_eq_some_iff.mp hjs
  rw [List.drop_eq_getElem_cons hlt, hget,
    show region.leftEnd - region.left = region.leftEnd - region.left - 1 + 1 by omega,
    List.take_succ_cons]
  exact bestRun_size_pos hj hright hrightEnd

/-! ### Lines that stand once -/

private theorem length_positionsFrom (line : String) (position : Nat) (ls : List String) :
    (positionsFrom line position ls).length = ls.count line := by
  induction ls generalizing position with
  | nil => rfl
  | cons l ls ih =>
    rw [positionsFrom]
    split
    next heq => rw [List.length_cons, ih, heq, List.count_cons_self]
    next hne => rw [ih, List.count_cons_of_ne hne]

/-- Each line of the first text stands at one place of the second only, and in the same order. -/
structure Placed (a b : List String) (f : Nat → Nat) : Prop where
  lt : ∀ i j, i < j → j < a.length → f i < f j
  getElem?_eq_iff : ∀ i j, i < a.length → (a[i]? = b[j]? ↔ j = f i)

/-- The lines of a text have one place each in a text to which they belong, where they stand only
once. -/
theorem exists_placed (hsub : a.Sublist b) (hunique : ∀ l ∈ a, b.count l = 1) :
    ∃ f, Placed a b f := by
  obtain ⟨f, hf⟩ := List.sublist_iff_exists_orderEmbedding_getElem?_eq.mp hsub
  refine ⟨f, fun i j hij _ ↦ f.lt_iff_lt.mpr hij, fun i j hi ↦ ⟨fun heq ↦ ?_, ?_⟩⟩
  · have hline : a[i]? = some a[i] := List.getElem?_eq_getElem hi
    have hplace (k : Nat) (hk : b[k]? = some a[i]) : k ∈ positionsFrom a[i] 0 b :=
      mem_positionsFrom_iff.mpr ⟨Nat.zero_le k, hk⟩
    have hone : (positionsFrom a[i] 0 b).length = 1 := by
      rw [length_positionsFrom]
      exact hunique _ (List.getElem_mem hi)
    obtain ⟨k, hk⟩ := List.length_eq_one_iff.mp hone
    have hj := hplace j (heq.symm.trans hline)
    have hfi := hplace (f i) ((hf i).symm.trans hline)
    rw [hk, List.mem_singleton] at hj hfi
    rw [hj, hfi]
  · rintro rfl
    exact hf i

/-- Where a line stands once a run may start from it. -/
theorem mem_anchorsIn {line : String} {j : Nat} (hone : b.count line = 1)
    (hj : b[j]? = some line) : j ∈ anchorsIn b line := by
  have hnot : isPopular b.length (positionsFrom line 0 b).length = false := by
    rw [length_positionsFrom, hone, isPopular, Bool.and_eq_false_iff]
    right
    rw [decide_eq_false_iff_not]
    omega
  simp only [anchorsIn, hnot, Bool.false_eq_true, if_false]
  exact mem_positionsFrom_iff.mpr ⟨Nat.zero_le j, hj⟩

/-! ### Every line is found -/

/-- One of the runs has the line of the first text. -/
def Covers (rs : List Run) (i : Nat) : Prop := ∃ r ∈ rs, r.left ≤ i ∧ i < r.left + r.size

private theorem Placed.longest_pos (hf : Placed a b f) (hunique : ∀ l ∈ a, b.count l = 1)
    (hleft : region.left < region.leftEnd) (hend : region.leftEnd ≤ a.length)
    (hright : region.right ≤ f region.left) (hrightEnd : f region.left < region.rightEnd) :
    0 < ((Pairing.ofLines a b).longest region).size := by
  have hlt : region.left < a.length := Nat.lt_of_lt_of_le hleft hend
  have hline : a[region.left]? = some a[region.left] := List.getElem?_eq_getElem hlt
  have hplace := ((hf.getElem?_eq_iff _ _ hlt).mpr rfl).symm.trans hline
  have hanchors : (Pairing.ofLines a b).anchors[region.left]? =
      some (anchorsIn b a[region.left]) := by
    rw [Pairing.ofLines, List.getElem?_map, hline, Option.map_some]
  exact Pairing.longest_size_pos hleft hanchors
    (mem_anchorsIn (hunique _ (List.getElem_mem hlt)) hplace) hright hrightEnd

/-- The lines of a run stand at their places. -/
private theorem Placed.place_of_agrees (hf : Placed a b f) {r : Run}
    (hr : r.Agrees a.toArray b.toArray) {i : Nat} (hi : r.left ≤ i) (hlt : i < r.left + r.size)
    (hlength : i < a.length) : f i = r.right + (i - r.left) := by
  have hagrees := hr (i - r.left) (by omega)
  rw [List.getElem?_toArray, List.getElem?_toArray, show r.left + (i - r.left) = i by omega]
    at hagrees
  exact ((hf.getElem?_eq_iff i _ hlength).mp hagrees).symm

/-- Each line of a region is in one of its runs, where the places of all lines are in the region.
The induction is on the fuel; the places of the lines before a run come before it, and those of the
lines after it come after it. -/
private theorem Placed.covers_runs (hf : Placed a b f) (hunique : ∀ l ∈ a, b.count l = 1)
    (fuel : Nat) (region : Region) (hfuel : region.leftEnd - region.left < fuel)
    (hleft : region.left ≤ region.leftEnd) (hend : region.leftEnd ≤ a.length)
    (hright : region.right ≤ region.rightEnd)
    (hin : ∀ i, region.left ≤ i → i < region.leftEnd → region.right ≤ f i ∧ f i < region.rightEnd)
    {i : Nat} (hi : region.left ≤ i) (hlt : i < region.leftEnd) :
    Covers ((Pairing.ofLines a b).runs fuel region) i := by
  induction fuel generalizing region with
  | zero => omega
  | succ fuel ih =>
    have hfits := Pairing.longest_fitsIn (Pairing.honest_ofLines a b) hleft hright
    have hfirst := hin region.left (Nat.le_refl _) (by omega)
    have hpos := hf.longest_pos hunique (by omega) hend hfirst.1 hfirst.2
    rw [Pairing.runs, if_neg (by omega)]
    generalize (Pairing.ofLines a b).longest region = run at hfits hpos ⊢
    obtain ⟨hl, hle, hr, hre, hagrees⟩ := hfits
    have hplace {j : Nat} (hj : run.left ≤ j) (hj' : j < run.left + run.size) :=
      hf.place_of_agrees hagrees hj hj' (by omega)
    by_cases hbefore : i < run.left
    · obtain ⟨r, hmem, hcovers⟩ := ih ⟨region.left, run.left, region.right, run.right⟩
        (by dsimp only; omega) hl (by dsimp only; omega) hr
        (fun j hj hj' ↦ by
          have hstart := hplace (Nat.le_refl run.left) (by omega)
          have := hf.lt j run.left hj' (by omega)
          have := hin j hj (by dsimp only at hj'; omega)
          dsimp only
          omega) hi hbefore
      exact ⟨r, List.mem_append_left _ hmem, hcovers⟩
    · by_cases hafter : i < run.left + run.size
      · exact ⟨run, List.mem_append_right _ (List.mem_cons_self ..), by omega, hafter⟩
      · obtain ⟨r, hmem, hcovers⟩ := ih ⟨run.left + run.size, region.leftEnd,
            run.right + run.size, region.rightEnd⟩ (by dsimp only; omega) hle hend hre
          (fun j hj hj' ↦ by
            have hlast := @hplace (run.left + run.size - 1) (by omega) (by omega)
            have := hf.lt (run.left + run.size - 1) j (by dsimp only at hj; omega)
              (by dsimp only at hj'; omega)
            have := hin j (by dsimp only at hj; omega) hj'
            dsimp only
            omega) (by dsimp only; omega) hlt
        exact ⟨r, List.mem_append_right _ (List.mem_cons_of_mem _ hmem), hcovers⟩

private theorem covers_mergeFrom {rs : List Run} {i : Nat} (held : Run)
    (h : Covers (held :: rs) i) : Covers (mergeFrom held rs) i := by
  induction rs generalizing held with
  | nil =>
    obtain ⟨r, hr, hle, hlt⟩ := h
    rw [mergeFrom]
    split
    next hzero =>
      rw [List.mem_singleton.mp hr] at hle hlt
      omega
    next => exact ⟨r, hr, hle, hlt⟩
  | cons s rs ih =>
    obtain ⟨r, hr, hle, hlt⟩ := h
    rw [mergeFrom]
    split
    next hjoins =>
      apply ih
      rcases List.mem_cons.mp hr with rfl | hr
      · exact ⟨_, List.mem_cons_self .., hle, by dsimp only; omega⟩
      · rcases List.mem_cons.mp hr with rfl | hr
        · exact ⟨_, List.mem_cons_self .., by dsimp only; omega, by dsimp only; omega⟩
        · exact ⟨r, List.mem_cons_of_mem _ hr, hle, hlt⟩
    next =>
      split
      next hzero =>
        apply ih
        rcases List.mem_cons.mp hr with rfl | hr
        · omega
        · exact ⟨r, hr, hle, hlt⟩
      next =>
        rcases List.mem_cons.mp hr with rfl | hr
        · exact ⟨r, List.mem_cons_self .., hle, hlt⟩
        · obtain ⟨t, ht, hcovers⟩ := ih s ⟨r, hr, hle, hlt⟩
          exact ⟨t, List.mem_cons_of_mem _ ht, hcovers⟩

/-- Each line of a text has its place in a common run. -/
theorem Placed.exists_commonRun (hf : Placed a b f) (hunique : ∀ l ∈ a, b.count l = 1) {i : Nat}
    (hi : i < a.length) :
    ∃ r ∈ commonRuns a b, r.left ≤ i ∧ i < r.left + r.size ∧ f i = r.right + (i - r.left) := by
  have hplaces (j : Nat) (hj : j < a.length) : f j < b.length := by
    have hline := (hf.getElem?_eq_iff j (f j) hj).mpr rfl
    rw [List.getElem?_eq_getElem hj] at hline
    exact (List.getElem?_eq_some_iff.mp hline.symm).1
  obtain ⟨r, hr, hle, hlt⟩ := covers_mergeFrom ⟨0, 0, 0⟩ (i := i)
    (let ⟨r, hr, hcovers⟩ := hf.covers_runs hunique (a.length + 1) ⟨0, a.length, 0, b.length⟩
      (Nat.lt_succ_self _) (Nat.zero_le _) (Nat.le_refl _) (Nat.zero_le _)
      (fun j _ hj ↦ ⟨Nat.zero_le _, hplaces j hj⟩) (Nat.zero_le i) hi
    ⟨r, List.mem_cons_of_mem _ hr, hcovers⟩)
  exact ⟨r, hr, hle, hlt, hf.place_of_agrees ((commonRuns_between a b).agrees_of_mem hr) hle hlt hi⟩

/-! ### What the diff names -/

/-- A change has no line of the first text, and of the second one only lines that the first one
does not have. -/
theorem Placed.change_eq (hf : Placed a b f) (hunique : ∀ l ∈ a, b.count l = 1) {e : Edit}
    (he : e ∈ changes a b) :
    e.left = e.leftEnd ∧
      ∀ (j : Nat) l, e.right ≤ j → j < e.rightEnd → b[j]? = some l → l ∉ a := by
  have hwithin := within_of_mem_changes he
  have hbetween := commonRuns_between a b
  constructor
  · refine Int.le_antisymm hwithin.left_le (Int.not_lt.mp fun hlt ↦ ?_)
    have hnonneg := hwithin.left_nonneg
    have hend := hwithin.leftEnd_le
    obtain ⟨r, hr, hle, hlt', -⟩ :=
      @Placed.exists_commonRun a b f hf hunique e.left.toNat (by omega)
    have := avoids_of_mem_changesOf hbetween he hr
    omega
  · intro j l hright hrightEnd hl hmem
    obtain ⟨i, hi, hget⟩ := List.getElem_of_mem hmem
    have hline : a[i]? = b[j]? := by rw [hl, List.getElem?_eq_getElem hi, hget]
    obtain ⟨r, hr, hle, hlt, hplace⟩ := hf.exists_commonRun hunique hi
    rw [← (hf.getElem?_eq_iff i j hi).mp hline] at hplace
    have := avoids_of_mem_changesOf hbetween he hr
    omega

/-- What the hunks of the diff of two texts are, where every line of the first text has one place
in the second. -/
private theorem Placed.hunk_adds {base head path : String} {d : FileDiff}
    (hpath : '\n' ∉ path.toList) (hd : FileDiff.ofText (unified base head path 0) path = .ok d)
    (hf : Placed (closedLines base) (closedLines head) f)
    (hunique : ∀ l ∈ closedLines base, (closedLines head).count l = 1) {h : Hunk}
    (hh : h ∈ d.hunks) : h.baseFirst = h.baseNext ∧ ∀ n l, h.headFirst ≤ n → n < h.headNext →
      IsLine (lines head) n l → l ∉ lines base := by
  have hchange : ∃ e ∈ changes (closedLines base) (closedLines head), Hunk.ofChange e = h := by
    obtain ⟨hs, hhs, rfl⟩ := except_map_eq_ok_iff.mp hd
    have hmem : h ∈ hs := hh
    rw [eq_map_ofChange_of_hunksOf hpath hhs] at hmem
    exact List.mem_map.mp hmem
  obtain ⟨e, he, rfl⟩ := hchange
  obtain ⟨hbase, hhead⟩ := hf.change_eq hunique he
  rw [baseFirst_ofChange, baseNext_ofChange, headFirst_ofChange, headNext_ofChange, hbase]
  refine ⟨rfl, ?_⟩
  rintro n l hfirst hnext ⟨k, hk, hl⟩ hmem
  refine hhead k (l ++ "\n") (by omega) (by omega) ?_ ?_
  · rw [Text.closedLines_eq, List.getElem?_map, hl, Option.map_some]
  · rw [Text.closedLines_eq]
    exact List.mem_map_of_mem hmem

private theorem exists_placed_closedLines {base head : String}
    (hsub : (lines base).Sublist (lines head))
    (hunique : ∀ l ∈ lines base, (lines head).count l = 1) :
    (∀ l ∈ closedLines base, (closedLines head).count l = 1) ∧
      ∃ f, Placed (closedLines base) (closedLines head) f := by
  have hinjective : Function.Injective fun l : String ↦ l ++ "\n" :=
    fun l m h ↦ (String.append_left_inj _).mp h
  have hclosed : ∀ l ∈ closedLines base, (closedLines head).count l = 1 := by
    rw [Text.closedLines_eq, Text.closedLines_eq, List.forall_mem_map]
    intro l hl
    rw [List.count_map_of_injective _ _ hinjective]
    exact hunique l hl
  refine ⟨hclosed, exists_placed ?_ hclosed⟩
  rw [Text.closedLines_eq, Text.closedLines_eq]
  exact hsub.map _

/-- The diff of a text to which lines were added names these lines and no other, where every line
of the text stands only once in what it has become. -/
theorem added_of_ofText_unified {base head path : String} {d : FileDiff}
    (hpath : '\n' ∉ path.toList) (hd : FileDiff.ofText (unified base head path 0) path = .ok d)
    (hsub : (lines base).Sublist (lines head))
    (hunique : ∀ l ∈ lines base, (lines head).count l = 1) (n : Int) :
    n ∉ d.removed ∧ (n ∈ d.changed ↔ ∃ l, IsLine (lines head) n l ∧ l ∉ lines base) := by
  obtain ⟨hunique', f, hf⟩ := exists_placed_closedLines hsub hunique
  have hparts := partitions_of_ofText_unified hpath hd
  refine ⟨?_, fun hchanged ↦ ?_, ?_⟩
  · rw [hparts.removed]
    rintro ⟨h, hh, hfirst, hnext⟩
    have := (hf.hunk_adds hpath hd hunique' hh).1
    omega
  · rw [hparts.changed] at hchanged
    obtain ⟨h, hh, hfirst, hnext⟩ := hchanged
    have hcount : h.headNext = h.headFirst + h.headCount := rfl
    obtain ⟨hone, hend⟩ := hparts.head_within h hh (by omega)
    have hlt : (n - 1).toNat < (lines head).length := by omega
    have hl : IsLine (lines head) n (lines head)[(n - 1).toNat] :=
      ⟨_, by omega, List.getElem?_eq_getElem hlt⟩
    exact ⟨_, hl, (hf.hunk_adds hpath hd hunique' hh).2 n _ hfirst hnext hl⟩
  · rintro ⟨l, hl, hnot⟩
    refine Classical.byContradiction fun hchanged ↦ hnot ?_
    obtain ⟨k, -, hk⟩ := hparts.isLine_origin hchanged hl
    exact List.mem_of_getElem? hk

end RouteWatch.Diff
