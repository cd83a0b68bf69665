import RouteWatch.Proofs.Diff.Unified

/-!
# The diff of a text and itself

Of a text and itself the search for common runs finds one, the whole text. Lines that stand in a
text more than once give runs off the diagonal, but none that ends at a line is longer than the one
on the diagonal that ends there or that ended before it, so that the longest run that is found
first stands on the diagonal. This holds whatever lines are popular; if all are, the run that the
search begins with stands there. From the diagonal the equal lines around a run are all of the text.
-/

namespace RouteWatch.Diff

open RouteWatch.Text (closedLines closedLines_eq length_closedLines lines)

/-! ### Where the lines of a text stand in it -/

private theorem pairwise_positionsFrom (line : String) (position : Nat) (ls : List String) :
    (positionsFrom line position ls).Pairwise (· < ·) := by
  induction ls generalizing position with
  | nil => exact .nil
  | cons l ls ih =>
    rw [positionsFrom]
    split
    · exact .cons (fun j hj ↦ (mem_positionsFrom_iff.mp hj).1) (ih _)
    · exact ih _

/-- The rows of a text and itself: the positions of a row are in order, each of them has the same
row, and its own is among them. -/
private structure FindsSelf (rows : List (List Nat)) : Prop where
  pairwise : ∀ js ∈ rows, js.Pairwise (· < ·)
  mem : ∀ (i : Nat) (js : List Nat), rows[i]? = some js → js ≠ [] → i ∈ js
  same : ∀ (i : Nat) (js : List Nat), rows[i]? = some js → ∀ j ∈ js, rows[j]? = some js

private theorem anchorsIn_cases (text : List String) (line : String) :
    anchorsIn text line = [] ∨ anchorsIn text line = positionsFrom line 0 text := by
  simp only [anchorsIn]
  split
  · exact .inl rfl
  · exact .inr rfl

private theorem findsSelf_anchors (a : List String) : FindsSelf (a.map (anchorsIn a)) where
  pairwise js hjs := by
    obtain ⟨line, -, rfl⟩ := List.mem_map.mp hjs
    rcases anchorsIn_cases a line with hnone | hall
    · rw [hnone]
      exact .nil
    · rw [hall]
      exact pairwise_positionsFrom line 0 a
  mem i js hjs hne := by
    rw [List.getElem?_map, Option.map_eq_some_iff] at hjs
    obtain ⟨line, hline, rfl⟩ := hjs
    rw [(anchorsIn_cases a line).resolve_left hne]
    exact mem_positionsFrom_iff.mpr ⟨Nat.zero_le i, hline⟩
  same i js hjs j hj := by
    rw [List.getElem?_map, Option.map_eq_some_iff] at hjs
    obtain ⟨line, -, rfl⟩ := hjs
    have hfound := hj
    rw [(anchorsIn_cases a line).resolve_left (List.ne_nil_of_mem hj)] at hfound
    have hline : a[j]? = some line := (mem_positionsFrom_iff.mp hfound).2
    rw [List.getElem?_map, hline]
    rfl

/-! ### The diagonal -/

/-- The number of rows right before a position that are not empty: the length of the run on the
diagonal that ends there. -/
def diagonalTo (rows : List (List Nat)) : Nat → Nat
  | 0 => 0
  | i + 1 => if (rows[i]?).getD [] = [] then 0 else diagonalTo rows i + 1

/-- What the search has found before a row: a run on the diagonal, none on it being longer, and run
lengths that are at most those of the diagonal on either side. -/
private structure OnDiagonal (rows : List (List Nat)) (i : Nat) (before : Row) (best : Run) :
    Prop where
  left_eq : best.left = best.right
  le_size : ∀ k ≤ i, diagonalTo rows k ≤ best.size
  diagonal : runLength before i = diagonalTo rows i + 1
  le_here : ∀ j, runLength before j ≤ diagonalTo rows i + 1
  le_there : ∀ j, runLength before j ≤ diagonalTo rows j + 1

variable {rows : List (List Nat)} {i : Nat} {before : Row} {best : Run} {js : List Nat}

private theorem diagonalTo_add_one (hjs : rows[i]? = some js) (hne : js ≠ []) :
    diagonalTo rows (i + 1) = diagonalTo rows i + 1 := by
  rw [diagonalTo, hjs, Option.getD_some, if_neg hne]

private theorem better_of_le {entry : Nat × Nat} (h : entry.2 ≤ best.size) :
    better best i entry = best := if_neg (Nat.not_lt.mpr h)

private theorem foldl_better_of_le {row : Row} (h : ∀ entry ∈ row, entry.2 ≤ best.size) :
    row.foldl (fun best entry ↦ better best i entry) best = best := by
  induction row with
  | nil => rfl
  | cons entry row ih =>
    rw [List.foldl_cons, better_of_le (h entry (List.mem_cons_self ..))]
    exact ih fun e he ↦ h e (List.mem_cons_of_mem _ he)

/-- Of a row only the run on the diagonal can be better than what was found: those that begin
before it end where one as long on the diagonal has ended, and those after it are not longer. -/
private theorem foldl_better_eq (hrows : FindsSelf rows) (h : OnDiagonal rows i before best)
    (hjs : rows[i]? = some js) (hne : js ≠ []) :
    (nextRow before js).foldl (fun best entry ↦ better best i entry) best =
      better best i (i, diagonalTo rows i + 1) := by
  obtain ⟨xs, ys, hsplit⟩ := List.append_of_mem (hrows.mem i js hjs hne)
  have hpairwise := hrows.pairwise js (List.mem_of_getElem? hjs)
  rw [hsplit, List.pairwise_append] at hpairwise
  have hbefore : ∀ entry ∈ nextRow before xs, entry.2 ≤ best.size := by
    intro entry hentry
    obtain ⟨j, hj, rfl⟩ := List.mem_map.mp hentry
    have hlt : j < i := hpairwise.2.2 j hj i (List.mem_cons_self ..)
    have hrow := hrows.same i js hjs j (hsplit ▸ List.mem_append_left _ hj)
    calc runLength before j
      _ ≤ diagonalTo rows j + 1 := h.le_there j
      _ = diagonalTo rows (j + 1) := (diagonalTo_add_one hrow hne).symm
      _ ≤ best.size := h.le_size (j + 1) hlt
  have hafter : ∀ entry ∈ nextRow before ys,
      entry.2 ≤ (better best i (i, diagonalTo rows i + 1)).size := by
    intro entry hentry
    obtain ⟨j, -, rfl⟩ := List.mem_map.mp hentry
    exact Nat.le_trans (h.le_here j) (size_le_better best i (i, _)).2
  rw [hsplit, nextRow, List.map_append, List.map_cons, List.foldl_append, List.foldl_cons,
    h.diagonal]
  rw [← nextRow, ← nextRow, foldl_better_of_le hbefore, foldl_better_of_le hafter]

private theorem lookup_nextRow (before : Row) (js : List Nat) (j : Nat) :
    (nextRow before js).lookup j = if j ∈ js then some (runLength before j) else none := by
  induction js with
  | nil => rfl
  | cons k js ih =>
    rw [nextRow, List.map_cons, ← nextRow, List.lookup_cons, ih]
    by_cases h : j = k
    · simp [h]
    · simp [h, beq_false_of_ne h]

private theorem runLength_nextRow (before : Row) (js : List Nat) (j : Nat) :
    runLength (nextRow before js) (j + 1) = if j ∈ js then runLength before j + 1 else 1 := by
  rw [runLength, lookup_nextRow]
  split <;> rfl

/-- A line that starts no run leaves what was found. -/
private theorem OnDiagonal.skip (h : OnDiagonal rows i before best) (hjs : rows[i]? = some []) :
    OnDiagonal rows (i + 1) [] best := by
  have hzero : diagonalTo rows (i + 1) = 0 := by rw [diagonalTo, hjs]; rfl
  have hone (j : Nat) : runLength [] j = 1 := by cases j <;> rfl
  refine ⟨h.left_eq, fun k hk ↦ ?_, by rw [hone, hzero], fun j ↦ ?_, fun j ↦ ?_⟩
  · rcases Nat.lt_or_eq_of_le hk with hlt | rfl
    · exact h.le_size k (Nat.le_of_lt_succ hlt)
    · rw [hzero]
      exact Nat.zero_le _
  · rw [hone]
    exact Nat.le_add_left 1 _
  · rw [hone]
    exact Nat.le_add_left 1 _

/-- A line that starts runs lets the run on the diagonal grow, and those beside it no more. -/
private theorem OnDiagonal.grow (hrows : FindsSelf rows) (h : OnDiagonal rows i before best)
    (hjs : rows[i]? = some js) (hne : js ≠ []) :
    OnDiagonal rows (i + 1) (nextRow before js) (better best i (i, diagonalTo rows i + 1)) where
  left_eq := by
    unfold better
    split
    · rfl
    · exact h.left_eq
  le_size k hk := by
    obtain ⟨hkept, hfound⟩ := size_le_better best i (i, diagonalTo rows i + 1)
    rcases Nat.lt_or_eq_of_le hk with hlt | rfl
    · exact Nat.le_trans (h.le_size k (Nat.le_of_lt_succ hlt)) hkept
    · rwa [diagonalTo_add_one hjs hne]
  diagonal := by
    rw [runLength_nextRow, if_pos (hrows.mem i js hjs hne), h.diagonal, diagonalTo_add_one hjs hne]
  le_here j := by
    rw [diagonalTo_add_one hjs hne]
    cases j with
    | zero => exact Nat.le_add_left 1 _
    | succ j =>
      rw [runLength_nextRow]
      split
      · exact Nat.succ_le_succ (h.le_here j)
      · exact Nat.le_add_left 1 _
  le_there j := by
    cases j with
    | zero => exact Nat.le_refl 1
    | succ j =>
      rw [runLength_nextRow]
      split
      · next hj =>
        rw [diagonalTo_add_one (hrows.same i js hjs j hj) hne]
        exact Nat.succ_le_succ (h.le_there j)
      · exact Nat.le_add_left 1 _

/-- The induction is on the rows to come. A region of the whole text leaves out no position. -/
private theorem bestRun_onDiagonal (hrows : FindsSelf rows) {rest : List (List Nat)}
    (hrest : rows.drop i = rest) (h : OnDiagonal rows i before best) :
    (bestRun ⟨0, rows.length, 0, rows.length⟩ i before best rest).left =
      (bestRun ⟨0, rows.length, 0, rows.length⟩ i before best rest).right := by
  induction rest generalizing i before best with
  | nil => exact h.left_eq
  | cons js rest ih =>
    have hjs : rows[i]? = some js := by
      rw [← List.head?_drop, hrest]
      rfl
    have hdrop : rows.drop (i + 1) = rest := by
      rw [← List.drop_drop, hrest]
      rfl
    have hall : (js.filter fun j ↦ 0 ≤ j && j < rows.length) = js := by
      rw [List.filter_eq_self]
      intro j hj
      obtain ⟨hlt, -⟩ := List.getElem?_eq_some_iff.mp (hrows.same i js hjs j hj)
      simpa using hlt
    rw [bestRun]
    dsimp only
    rw [hall]
    by_cases hne : js = []
    · subst hne
      exact ih hdrop (h.skip hjs)
    · rw [foldl_better_eq hrows h hjs hne]
      exact ih hdrop (h.grow hrows hjs hne)

/-! ### The one run -/

private theorem extendBack_self (x : Array String) (n k size : Nat) :
    extendBack x x ⟨0, n, 0, n⟩ k k size = ⟨0, 0, k + size⟩ := by
  induction k generalizing size with
  | zero => rw [extendBack, Nat.zero_add]; nofun
  | succ k ih =>
    rw [extendBack, if_pos ⟨Nat.zero_le k, Nat.zero_le k, rfl⟩, ih, Nat.succ_add_eq_add_succ]

private theorem le_extendForward_self (x : Array String) {n fuel size : Nat}
    (h : n ≤ fuel + size) : n ≤ extendForward x x ⟨0, n, 0, n⟩ 0 0 fuel size := by
  induction fuel generalizing size with
  | zero => rwa [extendForward, ← Nat.zero_add size]
  | succ fuel ih =>
    rw [extendForward]
    split
    · exact ih (by omega)
    · next hstop =>
      simp only [Nat.zero_add, and_true, and_self] at hstop
      exact Nat.le_of_not_lt hstop

/-- The longest run of a text and itself is the whole text. -/
theorem longest_self (a : List String) :
    (Pairing.ofLines a a).longest ⟨0, a.length, 0, a.length⟩ = ⟨0, 0, a.length⟩ := by
  obtain ⟨rows, hanchors⟩ : ∃ rows, a.map (anchorsIn a) = rows := ⟨_, rfl⟩
  obtain ⟨best, hbestRun⟩ :
      ∃ best, best = bestRun ⟨0, a.length, 0, a.length⟩ 0 [] ⟨0, 0, 0⟩ rows := ⟨_, rfl⟩
  have hlength : rows.length = a.length := by rw [← hanchors, List.length_map]
  have hstart : OnDiagonal rows 0 [] ⟨0, 0, 0⟩ := by
    refine ⟨rfl, fun k hk ↦ ?_, rfl, fun j ↦ ?_, fun j ↦ ?_⟩
    · rw [Nat.le_zero.mp hk]
      exact Nat.le_refl 0
    · cases j <;> exact Nat.le_add_left 1 _
    · cases j <;> exact Nat.le_add_left 1 _
  have hbest : best.left = best.right := by
    have := bestRun_onDiagonal (hanchors ▸ findsSelf_anchors a) List.drop_zero hstart
    rwa [hlength, ← hbestRun] at this
  have hfits : ((Pairing.ofLines a a).longest ⟨0, a.length, 0, a.length⟩).FitsIn _ _ _ :=
    Pairing.longest_fitsIn (Pairing.honest_ofLines a a) (Nat.zero_le _) (Nat.zero_le _)
  have hrun : (Pairing.ofLines a a).longest ⟨0, a.length, 0, a.length⟩ =
      ⟨0, 0, extendForward a.toArray a.toArray ⟨0, a.length, 0, a.length⟩ 0 0 a.length
        (best.left + best.size)⟩ := by
    have hrows : (rows.drop 0).take (a.length - 0) = rows := by
      rw [List.drop_zero, Nat.sub_zero, ← hlength, List.take_length]
    have hback := extendBack_self a.toArray a.length best.left best.size
    rw [Pairing.longest, Pairing.ofLines, hanchors]
    dsimp only
    rw [hrows, ← hbestRun, ← hbest, hback]
    rfl
  have hle := hfits.leftEnd_le
  rw [hrun] at hle ⊢
  have hge := le_extendForward_self a.toArray (Nat.le_add_right a.length (best.left + best.size))
  simp only [Run.mk.injEq, true_and]
  exact Nat.le_antisymm (by simpa using hle) hge

private theorem runs_of_empty {p : Pairing} (hp : p.Honest) (fuel : Nat) {i j k : Nat}
    (hjk : j ≤ k) : p.runs fuel ⟨i, i, j, k⟩ = [] := by
  have hbetween := Pairing.runs_between hp fuel ⟨i, i, j, k⟩ (Nat.le_refl i) hjk
  cases hruns : p.runs fuel ⟨i, i, j, k⟩ with
  | nil => rfl
  | cons r rs =>
    rw [hruns] at hbetween
    cases hbetween with | cons hi _ hsize _ hrest =>
    have := (runsBetween_le hrest).1
    dsimp only at hi this
    omega

/-- A text and itself have one common run, the whole text. -/
theorem commonRuns_self {a : List String} (hne : a ≠ []) :
    commonRuns a a = [⟨0, 0, a.length⟩] := by
  have hpos : a.length ≠ 0 := mt List.length_eq_zero_iff.mp hne
  have hp := Pairing.honest_ofLines a a
  rw [commonRuns, Pairing.runs]
  dsimp only
  rw [longest_self, if_neg hpos, Nat.zero_add, runs_of_empty hp _ (Nat.le_refl _),
    runs_of_empty hp _ (Nat.le_refl _)]
  simp [mergeFrom, hpos]

/-! ### Diffs that are empty -/

/-- A text and itself have no groups of edits. -/
theorem groups_self {n : Int} (hn : 0 ≤ n) (a : List String) : groups n a a = [] := by
  by_cases hne : a = []
  · subst hne
    exact groupsFrom_kept hn rfl
  · have hedits : edits a a = [⟨.keep, 0, a.length, 0, a.length⟩] := by
      rw [edits, commonRuns_self hne]
      simp [editsFrom, gap]
    rw [groups, hedits]
    exact groupsFrom_kept hn rfl

/-- Two texts without groups of edits have the same lines. -/
private theorem lines_eq_of_groups_eq_nil {base head : String} {context : Nat}
    (h : groups context (closedLines base) (closedLines head) = []) : lines base = lines head := by
  obtain ⟨hgrouped, -⟩ := grouped_lines base head context
  rw [h] at hgrouped
  cases hgrouped with | nil hsame =>
  have hlines := hsame.lines_eq
  rwa [slice_all, slice_all] at hlines

/-- A diff is empty exactly where both texts have the same lines. -/
theorem unified_eq_empty_iff_lines_eq {base head path : String} {context : Nat} :
    unified base head path context = "" ↔ lines base = lines head := by
  constructor
  · intro hempty
    refine lines_eq_of_groups_eq_nil (?_ : groups context _ _ = [])
    by_contra hgroups
    obtain ⟨g, gs, hgs⟩ := List.exists_cons_of_ne_nil hgroups
    rw [unified, unifiedLines, hgs] at hempty
    simp [String.join_cons] at hempty
  · intro hlines
    rw [unified, unifiedLines, closedLines_eq, closedLines_eq, hlines,
      groups_self (Int.natCast_nonneg context)]
    rfl

end RouteWatch.Diff
