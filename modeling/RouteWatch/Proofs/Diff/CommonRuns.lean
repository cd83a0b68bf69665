import RouteWatch.Diff.Alignment

/-!
# Common runs are common

Whatever the search for the longest run finds, its lines are equal in both texts and it stays
in the region that was searched. Hence the runs of two texts stand in order, do not overlap and
carry equal lines. Nothing here depends on which run is longest or which lines are popular.
-/

namespace RouteWatch.Diff

variable {a b : Array String} {region : Region}

/-- The lines of a run are equal in both texts. -/
def Run.Agrees (a b : Array String) (r : Run) : Prop :=
  ∀ k < r.size, a[r.left + k]? = b[r.right + k]?

/-- A run of equal lines within a region. -/
structure Run.FitsIn (a b : Array String) (region : Region) (r : Run) : Prop where
  left_le : region.left ≤ r.left
  leftEnd_le : r.left + r.size ≤ region.leftEnd
  right_le : region.right ≤ r.right
  rightEnd_le : r.right + r.size ≤ region.rightEnd
  agrees : r.Agrees a b

/-! ### Rows of run lengths -/

/-- Each entry of a row is the end of a run in the region that ends before line `i`. -/
def RowFits (a b : Array String) (region : Region) (i : Nat) (row : Row) : Prop :=
  ∀ entry ∈ row, ∃ r : Run, r.FitsIn a b region ∧
    r.size = entry.2 ∧ r.left + r.size = i ∧ r.right + r.size = entry.1 + 1

private theorem fitsIn_single {i j : Nat} (hi : region.left ≤ i) (hi' : i < region.leftEnd)
    (hj : region.right ≤ j) (hj' : j < region.rightEnd) (he : a[i]? = b[j]?) :
    Run.FitsIn a b region ⟨i, j, 1⟩ := by
  refine ⟨hi, hi', hj, hj', ?_⟩
  intro k hk
  have hz : k = 0 := by
    change k < 1 at hk
    omega
  rw [hz]
  exact he

/-- A run grows by the line after it where that is equal in both texts. -/
private theorem fitsIn_grow {r : Run} (h : r.FitsIn a b region)
    (hi : r.left + r.size < region.leftEnd) (hj : r.right + r.size < region.rightEnd)
    (he : a[r.left + r.size]? = b[r.right + r.size]?) :
    Run.FitsIn a b region { r with size := r.size + 1 } := by
  refine ⟨h.left_le, by change r.left + (r.size + 1) ≤ _; omega, h.right_le,
    by change r.right + (r.size + 1) ≤ _; omega, ?_⟩
  intro k hk
  by_cases hs : k < r.size
  · exact h.agrees k hs
  · have hz : k = r.size := by
      change k < r.size + 1 at hk
      omega
    rw [hz]
    exact he

/-- A run grows by the line before it where that is equal in both texts. -/
private theorem fitsIn_grow_back {i j size : Nat} (h : Run.FitsIn a b region ⟨i + 1, j + 1, size⟩)
    (hi : region.left ≤ i) (hj : region.right ≤ j) (he : a[i]? = b[j]?) :
    Run.FitsIn a b region ⟨i, j, size + 1⟩ := by
  have h₁ := h.leftEnd_le
  have h₂ := h.rightEnd_le
  refine ⟨hi, by dsimp only at h₁ ⊢; omega, hj, by dsimp only at h₂ ⊢; omega, ?_⟩
  intro k hk
  cases k with
  | zero => exact he
  | succ k =>
    have hs := h.agrees k (by dsimp only at hk ⊢; omega)
    dsimp only at hs ⊢
    rw [show i + (k + 1) = i + 1 + k by omega, show j + (k + 1) = j + 1 + k by omega]
    exact hs

private theorem nextRow_fits {i : Nat} {before : Row} {js : List Nat}
    (hb : RowFits a b region i before) (hi : region.left ≤ i) (hi' : i < region.leftEnd)
    (hjs : ∀ j ∈ js, region.right ≤ j ∧ j < region.rightEnd ∧ a[i]? = b[j]?) :
    RowFits a b region (i + 1) (nextRow before js) := by
  intro entry hentry
  obtain ⟨j, hj, rfl⟩ := List.mem_map.mp hentry
  obtain ⟨hr, hr', he⟩ := hjs j hj
  cases j with
  | zero => exact ⟨⟨i, 0, 1⟩, fitsIn_single hi hi' hr hr' he, rfl, rfl, rfl⟩
  | succ j =>
    simp only [runLength]
    cases hl : before.lookup j with
    | none => exact ⟨⟨i, j + 1, 1⟩, fitsIn_single hi hi' hr hr' he, rfl, rfl, rfl⟩
    | some size =>
      obtain ⟨xs, ys, hs, _⟩ := List.lookup_eq_some_iff.mp hl
      obtain ⟨r, hf, hsize, hleft, hright⟩ := hb (j, size) (by rw [hs]; simp)
      dsimp only at hsize hright
      refine ⟨{ r with size := r.size + 1 }, fitsIn_grow hf ?_ ?_ ?_, ?_, ?_, ?_⟩
      · rw [hleft]; exact hi'
      · rw [hright]; exact hr'
      · rw [hleft, hright]; exact he
      · dsimp only [Option.getD_some]; omega
      · dsimp only; omega
      · dsimp only; omega

/-- The better of two runs is at least as long as either. -/
theorem size_le_better (best : Run) (i : Nat) (entry : Nat × Nat) :
    best.size ≤ (better best i entry).size ∧ entry.2 ≤ (better best i entry).size := by
  unfold better
  split
  next hlt => exact ⟨Nat.le_of_lt hlt, Nat.le_refl _⟩
  next hle => exact ⟨Nat.le_refl _, Nat.le_of_not_lt hle⟩

private theorem better_fits {best : Run} {i : Nat} {entry : Nat × Nat}
    (h : best.FitsIn a b region) {row : Row} (hrow : RowFits a b region (i + 1) row)
    (hentry : entry ∈ row) : (better best i entry).FitsIn a b region := by
  simp only [better]
  split
  · obtain ⟨r, hf, hsize, hleft, hright⟩ := hrow entry hentry
    have he : (⟨i + 1 - entry.2, entry.1 + 1 - entry.2, entry.2⟩ : Run) = r := by
      cases r
      simp only [Run.mk.injEq] at hsize hleft hright ⊢
      omega
    rw [he]
    exact hf
  · exact h

private theorem foldl_better_fits {best : Run} {i : Nat} {row rest : Row}
    (h : best.FitsIn a b region) (hrow : RowFits a b region (i + 1) row)
    (hrest : ∀ entry ∈ rest, entry ∈ row) :
    (rest.foldl (fun best entry ↦ better best i entry) best).FitsIn a b region := by
  induction rest generalizing best with
  | nil => exact h
  | cons entry rest ih =>
    rw [List.foldl_cons]
    apply ih
    · exact better_fits h hrow (hrest entry (List.mem_cons_self ..))
    · intro e he
      exact hrest e (List.mem_cons_of_mem _ he)

private theorem bestRun_fits {i : Nat} {before : Row} {best : Run} {rows : List (List Nat)}
    (h : best.FitsIn a b region) (hbefore : RowFits a b region i before)
    (hi : region.left ≤ i)
    (hrows : ∀ k js, rows[k]? = some js →
      i + k < region.leftEnd ∧ ∀ j ∈ js, a[i + k]? = b[j]?) :
    (bestRun region i before best rows).FitsIn a b region := by
  induction rows generalizing i before best with
  | nil => exact h
  | cons js rows ih =>
    obtain ⟨hi', he⟩ := hrows 0 js rfl
    have hrow : RowFits a b region (i + 1) (nextRow before
        (js.filter fun j ↦ region.right ≤ j && j < region.rightEnd)) := by
      apply nextRow_fits hbefore hi hi'
      intro j hj
      obtain ⟨hm, hin⟩ := List.mem_filter.mp hj
      simp only [Bool.and_eq_true, decide_eq_true_eq] at hin
      exact ⟨hin.1, hin.2, he j hm⟩
    simp only [bestRun]
    apply ih
    · exact foldl_better_fits h hrow fun _ he ↦ he
    · exact hrow
    · omega
    · intro k js hk
      have := hrows (k + 1) js hk
      rw [show i + (k + 1) = i + 1 + k by omega] at this
      exact this

/-! ### The longest run -/

private theorem extendBack_fits {i j size : Nat} (h : Run.FitsIn a b region ⟨i, j, size⟩) :
    (extendBack a b region i j size).FitsIn a b region := by
  fun_induction extendBack a b region i j size with
  | case1 i j size hc ih => exact ih (fitsIn_grow_back h hc.1 hc.2.1 hc.2.2)
  | case2 => exact h
  | case3 => exact h

private theorem extendForward_fits {i j fuel size : Nat}
    (h : Run.FitsIn a b region ⟨i, j, size⟩) :
    Run.FitsIn a b region ⟨i, j, extendForward a b region i j fuel size⟩ := by
  induction fuel generalizing size with
  | zero => exact h
  | succ fuel ih =>
    simp only [extendForward]
    split
    · next hc => exact ih (fitsIn_grow h hc.1 hc.2.1 hc.2.2)
    · exact h

/-- The anchors of a pairing stand only at equal lines. -/
def Pairing.Honest (p : Pairing) : Prop :=
  ∀ (i : Nat) (js : List Nat), p.anchors[i]? = some js → ∀ j ∈ js, p.left[i]? = p.right[j]?

/-- The longest run of a region lies in it and has equal lines. -/
theorem Pairing.longest_fitsIn {p : Pairing} (hp : p.Honest)
    (hleft : region.left ≤ region.leftEnd) (hright : region.right ≤ region.rightEnd) :
    (p.longest region).FitsIn p.left p.right region := by
  have hz : Run.FitsIn p.left p.right region ⟨region.left, region.right, 0⟩ :=
    ⟨Nat.le_refl _, hleft, Nat.le_refl _, hright, fun k hk ↦ absurd hk (Nat.not_lt_zero k)⟩
  apply extendForward_fits
  apply extendBack_fits
  apply bestRun_fits hz
  · intro entry he
    cases he
  · exact Nat.le_refl _
  · intro k js hk
    rw [List.getElem?_take] at hk
    split at hk
    · next hlt =>
      rw [List.getElem?_drop] at hk
      exact ⟨by omega, hp _ _ hk⟩
    · cases hk

/-- Where a line stands in a text. -/
theorem mem_positionsFrom_iff {line : String} {position j : Nat} {ls : List String} :
    j ∈ positionsFrom line position ls ↔ position ≤ j ∧ ls[j - position]? = some line := by
  induction ls generalizing position with
  | nil => simp [positionsFrom]
  | cons l ls ih =>
    have hnext : j ∈ positionsFrom line (position + 1) ls ↔
        position < j ∧ (l :: ls)[j - position]? = some line := by
      rw [ih]
      apply and_congr_right
      intro hlt
      rw [show j - position = j - (position + 1) + 1 by omega, List.getElem?_cons_succ]
    simp only [positionsFrom]
    split
    next heq =>
      rw [List.mem_cons, hnext]
      constructor
      · rintro (rfl | ⟨hlt, he⟩)
        · rw [Nat.sub_self, List.getElem?_cons_zero, heq]
          exact ⟨Nat.le_refl _, rfl⟩
        · exact ⟨Nat.le_of_lt hlt, he⟩
      · rintro ⟨hle, he⟩
        rcases Nat.eq_or_lt_of_le hle with rfl | hlt
        · exact .inl rfl
        · exact .inr ⟨hlt, he⟩
    next hne =>
      rw [hnext]
      refine ⟨fun ⟨hlt, he⟩ ↦ ⟨Nat.le_of_lt hlt, he⟩, fun ⟨hle, he⟩ ↦ ⟨?_, he⟩⟩
      rcases Nat.eq_or_lt_of_le hle with rfl | hlt
      · rw [Nat.sub_self, List.getElem?_cons_zero] at he
        exact absurd (Option.some.inj he) hne
      · exact hlt

/-- The anchors of two texts stand only at equal lines. -/
theorem Pairing.honest_ofLines (xs ys : List String) : (Pairing.ofLines xs ys).Honest := by
  intro i js hjs j hj
  simp only [Pairing.ofLines, List.getElem?_map, Option.map_eq_some_iff] at hjs
  obtain ⟨line, hline, rfl⟩ := hjs
  simp only [anchorsIn] at hj
  split at hj
  · cases hj
  · have := (mem_positionsFrom_iff.mp hj).2
    simp only [Pairing.ofLines, List.getElem?_toArray]
    rw [hline, ← this]
    rfl

/-! ### Runs in order -/

/-- Runs of equal lines that follow each other from the positions `i` and `j` on, up to the
positions `iEnd` and `jEnd`. -/
inductive RunsBetween (a b : Array String) (iEnd jEnd : Nat) : Nat → Nat → List Run → Prop
  | nil {i j : Nat} (hi : i ≤ iEnd) (hj : j ≤ jEnd) : RunsBetween a b iEnd jEnd i j []
  | cons {i j : Nat} {r : Run} {rs : List Run} (hi : i ≤ r.left) (hj : j ≤ r.right)
      (hsize : 0 < r.size) (hagrees : r.Agrees a b)
      (hrest : RunsBetween a b iEnd jEnd (r.left + r.size) (r.right + r.size) rs) :
      RunsBetween a b iEnd jEnd i j (r :: rs)

/-- Runs end between the positions that they are given. -/
theorem runsBetween_le {iEnd jEnd i j : Nat} {rs : List Run}
    (h : RunsBetween a b iEnd jEnd i j rs) : i ≤ iEnd ∧ j ≤ jEnd := by
  induction h with
  | nil hi hj => exact ⟨hi, hj⟩
  | cons hi hj _ _ _ ih => omega

/-- The lines of each of the runs are equal in both texts. -/
theorem RunsBetween.agrees_of_mem {iEnd jEnd i j : Nat} {rs : List Run}
    (h : RunsBetween a b iEnd jEnd i j rs) {r : Run} (hr : r ∈ rs) : r.Agrees a b := by
  induction h with
  | nil => exact absurd hr List.not_mem_nil
  | cons _ _ _ hagrees _ ih =>
    rcases List.mem_cons.mp hr with rfl | hr
    · exact hagrees
    · exact ih hr

private theorem RunsBetween.mono {iEnd jEnd i j i' j' : Nat} {rs : List Run}
    (h : RunsBetween a b iEnd jEnd i j rs) (hi : i' ≤ i) (hj : j' ≤ j) :
    RunsBetween a b iEnd jEnd i' j' rs := by
  cases h with
  | nil hi' hj' => exact .nil (Nat.le_trans hi hi') (Nat.le_trans hj hj')
  | cons hi' hj' hsize hagrees hrest =>
    exact .cons (Nat.le_trans hi hi') (Nat.le_trans hj hj') hsize hagrees hrest

private theorem RunsBetween.append {iEnd jEnd m n i j : Nat} {rs ss : List Run}
    (h : RunsBetween a b m n i j rs) (hs : RunsBetween a b iEnd jEnd m n ss) :
    RunsBetween a b iEnd jEnd i j (rs ++ ss) := by
  induction h with
  | nil hi hj => exact hs.mono hi hj
  | cons hi hj hsize hagrees _ ih => exact .cons hi hj hsize hagrees ih

/-- Runs of two texts are runs of any two whose lines are equal where those are equal. -/
theorem RunsBetween.imp {x y : Array String} {iEnd jEnd i j : Nat} {rs : List Run}
    (h : RunsBetween a b iEnd jEnd i j rs)
    (himp : ∀ i j : Nat, a[i]? = b[j]? → x[i]? = y[j]?) :
    RunsBetween x y iEnd jEnd i j rs := by
  induction h with
  | nil hi hj => exact .nil hi hj
  | cons hi hj hsize hagrees _ ih =>
    exact .cons hi hj hsize (fun k hk ↦ himp _ _ (hagrees k hk)) ih

/-- The runs of a region stand in order between its ends. -/
theorem Pairing.runs_between {p : Pairing} (hp : p.Honest) (fuel : Nat) (region : Region)
    (hleft : region.left ≤ region.leftEnd) (hright : region.right ≤ region.rightEnd) :
    RunsBetween p.left p.right region.leftEnd region.rightEnd region.left region.right
      (p.runs fuel region) := by
  induction fuel generalizing region with
  | zero => exact .nil hleft hright
  | succ fuel ih =>
    have hr := Pairing.longest_fitsIn hp hleft hright
    simp only [Pairing.runs]
    split
    · exact .nil hleft hright
    · next hsize =>
      let run := p.longest region
      have before := ih ⟨region.left, run.left, region.right, run.right⟩ hr.left_le hr.right_le
      have after := ih ⟨run.left + run.size, region.leftEnd, run.right + run.size,
        region.rightEnd⟩ hr.leftEnd_le hr.rightEnd_le
      apply RunsBetween.append before
      exact .cons (Nat.le_refl _) (Nat.le_refl _) (Nat.pos_of_ne_zero hsize) hr.agrees after

/-! ### Merging -/

/-- No run begins where the one before it ended, the first not at the positions `i` and `j`. -/
inductive Apart : Nat → Nat → List Run → Prop
  | nil {i j : Nat} : Apart i j []
  | cons {i j : Nat} {r : Run} {rs : List Run} (hne : ¬(i = r.left ∧ j = r.right))
      (hrest : Apart (r.left + r.size) (r.right + r.size) rs) : Apart i j (r :: rs)

/-- No run begins where the one before it ended. -/
inductive AllApart : List Run → Prop
  | nil : AllApart []
  | cons {r : Run} {rs : List Run} (hrest : Apart (r.left + r.size) (r.right + r.size) rs) :
      AllApart (r :: rs)

private theorem agrees_append {held r : Run} (hh : held.Agrees a b) (hr : r.Agrees a b)
    (hleft : held.left + held.size = r.left) (hright : held.right + held.size = r.right) :
    Run.Agrees a b { held with size := held.size + r.size } := by
  intro k hk
  by_cases hs : k < held.size
  · exact hh k hs
  · have := hr (k - held.size) (by dsimp only at hk; omega)
    rw [← hleft, ← hright] at this
    rw [show held.left + held.size + (k - held.size) = held.left + k by omega,
      show held.right + held.size + (k - held.size) = held.right + k by omega] at this
    exact this

private theorem mergeFrom_between {iEnd jEnd i j : Nat} (held : Run) {rs : List Run}
    (hi : i ≤ held.left) (hj : j ≤ held.right) (hh : held.Agrees a b)
    (h : RunsBetween a b iEnd jEnd (held.left + held.size) (held.right + held.size) rs) :
    RunsBetween a b iEnd jEnd i j (mergeFrom held rs) := by
  induction rs generalizing held i j with
  | nil =>
    simp only [mergeFrom]
    split
    · obtain ⟨h₁, h₂⟩ := runsBetween_le h
      exact .nil (by omega) (by omega)
    · exact .cons hi hj (by omega) hh h
  | cons r rs ih =>
    cases h with | cons hi' hj' hsize hr hrest =>
    simp only [mergeFrom]
    split
    · next hc =>
      apply ih { held with size := held.size + r.size } hi hj (agrees_append hh hr hc.1 hc.2)
      dsimp only
      rw [← Nat.add_assoc, ← Nat.add_assoc, hc.1, hc.2]
      exact hrest
    · split
      · exact ih r (by omega) (by omega) hr hrest
      · exact .cons hi hj (by omega) hh (ih r hi' hj' hr hrest)

/-- What is merged begins with the run that was held, which may have grown. -/
private theorem mergeFrom_eq_cons (held : Run) (rs : List Run) (h : 0 < held.size) :
    ∃ size ss, mergeFrom held rs = { held with size } :: ss := by
  induction rs generalizing held with
  | nil =>
    refine ⟨held.size, [], ?_⟩
    simp only [mergeFrom]
    rw [if_neg (by omega)]
  | cons r rs ih =>
    simp only [mergeFrom]
    split
    · exact ih { held with size := held.size + r.size } (by dsimp only; omega)
    · rw [if_neg (by omega)]
      exact ⟨held.size, _, rfl⟩

private theorem mergeFrom_apart {iEnd jEnd i j : Nat} {rs : List Run}
    (h : RunsBetween a b iEnd jEnd i j rs) (held : Run) : AllApart (mergeFrom held rs) := by
  induction h generalizing held with
  | nil =>
    simp only [mergeFrom]
    split
    · exact .nil
    · exact .cons .nil
  | @cons _ _ r rs _ _ hsize _ _ ih =>
    simp only [mergeFrom]
    split
    · exact ih _
    · next hc =>
      split
      · exact ih r
      · obtain ⟨size, ss, he⟩ := mergeFrom_eq_cons r rs hsize
        have hs := ih r
        rw [he] at hs ⊢
        cases hs with | cons hrest =>
        exact .cons (.cons hc hrest)

/-- The runs that two texts have in common carry equal lines, stand in order and do not
overlap. -/
theorem commonRuns_between (xs ys : List String) :
    RunsBetween xs.toArray ys.toArray xs.length ys.length 0 0 (commonRuns xs ys) := by
  apply mergeFrom_between ⟨0, 0, 0⟩ (Nat.le_refl _) (Nat.le_refl _)
  · exact fun k hk ↦ absurd hk (Nat.not_lt_zero k)
  · exact Pairing.runs_between (Pairing.honest_ofLines xs ys) (xs.length + 1)
      ⟨0, xs.length, 0, ys.length⟩ (Nat.zero_le _) (Nat.zero_le _)

/-- No common run begins where the one before it ended. -/
theorem commonRuns_apart (xs ys : List String) : AllApart (commonRuns xs ys) :=
  mergeFrom_apart (Pairing.runs_between (Pairing.honest_ofLines xs ys) (xs.length + 1)
    ⟨0, xs.length, 0, ys.length⟩ (Nat.zero_le _) (Nat.zero_le _)) _

end RouteWatch.Diff
