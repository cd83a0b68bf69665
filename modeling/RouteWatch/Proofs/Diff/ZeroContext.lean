import RouteWatch.Diff.Unified
import RouteWatch.Proofs.Diff.Changes

/-!
# Diffs without context

Without context every kept stretch ends one group of edits and begins the next, so each group
is one change, at most with empty kept stretches around it. A diff without context therefore has
one hunk for each change, and its header gives the ranges of that change.
-/

namespace RouteWatch.Diff

/-- The lines of the hunk of one change. -/
def changeLines (a b : List String) (e : Edit) : List String :=
  hunkHeader e e :: editLines a b e

/-- A kept stretch without a line. -/
private def touch (i j : Int) : Edit := ⟨.keep, i, i, j, j⟩

private theorem editLines_touch (a b : List String) (i j : Int) :
    editLines a b (touch i j) = [] := by
  simp [editLines, touch, slice]

private theorem hunkLines_change (a b : List String) (c : Edit) :
    hunkLines a b [c] = changeLines a b c := by
  simp [hunkLines, changeLines]

private theorem hunkLines_touch_change (a b : List String) (c : Edit) :
    hunkLines a b [touch c.left c.right, c] = changeLines a b c := by
  simp only [hunkLines, List.head?_cons, List.getLast?_cons_cons, List.getLast?_singleton,
    List.flatMap_cons, editLines_touch, List.nil_append, List.flatMap_nil, List.append_nil]
  rfl

private theorem hunkLines_change_touch (a b : List String) (c : Edit) :
    hunkLines a b [c, touch c.leftEnd c.rightEnd] = changeLines a b c := by
  simp only [hunkLines, List.head?_cons, List.getLast?_cons_cons, List.getLast?_singleton,
    List.flatMap_cons, editLines_touch, List.flatMap_nil, List.append_nil]
  rfl

private theorem hunkLines_between_touches (a b : List String) (c : Edit) :
    hunkLines a b [touch c.left c.right, c, touch c.leftEnd c.rightEnd] = changeLines a b c := by
  simp only [hunkLines, List.head?_cons, List.getLast?_cons_cons, List.getLast?_singleton,
    List.flatMap_cons, editLines_touch, List.nil_append, List.flatMap_nil, List.append_nil]
  rfl

private theorem keepTail_zero {i i' j j' : Int} (hi : i ≤ i') (hj : j ≤ j') :
    Edit.keepTail ⟨.keep, i, i', j, j'⟩ 0 = touch i' j' := by
  simp only [Edit.keepTail, touch, Edit.mk.injEq, true_and, and_true]
  omega

private theorem keepHead_zero {i i' j j' : Int} (hi : i ≤ i') (hj : j ≤ j') :
    Edit.keepHead ⟨.keep, i, i', j, j'⟩ 0 = touch i j := by
  simp only [Edit.keepHead, touch, Edit.mk.injEq, true_and]
  constructor
  · omega
  · omega

private theorem trimEnd_touch (i j : Int) : trimEnd 0 [touch i j] = [touch i j] := by
  rw [trimEnd, touch, if_pos rfl, keepHead_zero (Int.le_refl i) (Int.le_refl j)]
  rfl

private theorem trimEnd_cons_cons (context : Int) (e f : Edit) (es : List Edit) :
    trimEnd context (e :: f :: es) = e :: trimEnd context (f :: es) := rfl

private theorem groupsFrom_change {held : List Edit} {c : Edit} (es : List Edit)
    (hc : c.change ≠ .keep) : groupsFrom 0 held (c :: es) = groupsFrom 0 (c :: held) es := by
  simp [groupsFrom, hc]

private theorem groupsFrom_keep {held : List Edit} {i i' j j' : Int} (es : List Edit)
    (hi : i < i') (hj : j ≤ j') :
    groupsFrom 0 held (⟨.keep, i, i', j, j'⟩ :: es) =
      (touch i j :: held).reverse :: groupsFrom 0 [touch i' j'] es := by
  rw [groupsFrom, if_pos ⟨rfl, by dsimp only; omega⟩, keepHead_zero (by omega) hj,
    keepTail_zero (by omega) hj]

private theorem groupsFrom_touch {held : List Edit} (c : Edit) (i j : Int) :
    groupsFrom 0 (c :: held) [touch i j] = [(touch i j :: c :: held).reverse] := by
  rw [groupsFrom, if_neg (by simp [touch])]
  rfl

/-- A change after which there is no kept stretch is the last group. -/
private theorem groupsFrom_last (a b : List String) {held : List Edit} {c : Edit}
    (hheld : held = [] ∨ held = [touch c.left c.right]) (hc : c.change ≠ .keep) :
    (groupsFrom 0 held (trimEnd 0 [c])).map (hunkLines a b) =
      (changesOf [c]).map (changeLines a b) := by
  have hchanges : changesOf [c] = [c] := by simp [changesOf, hc]
  rw [trimEnd, if_neg hc, groupsFrom_change [] hc, hchanges]
  rcases hheld with rfl | rfl
  · rw [groupsFrom, if_neg hc]
    simp [hunkLines_change]
  · exact congrArg (· :: []) (hunkLines_touch_change a b c)

/-- The groups from a position on, which begins the texts or follows a kept stretch: each is one
change. The induction is on the runs; a group is closed by the run that follows its change. -/
private theorem groupsFrom_editsFrom (a b : List String) {x y : Array String}
    {sizeA sizeB i j : Nat} {held : List Edit} {rs : List Run}
    (hheld : held = [] ∨ held = [touch i j])
    (hrs : RunsBetween x y sizeA sizeB i j rs) (hapart : Apart i j rs) :
    (groupsFrom 0 held (trimEnd 0 (editsFrom sizeA sizeB i j rs))).map (hunkLines a b) =
      (changesOf (editsFrom sizeA sizeB i j rs)).map (changeLines a b) := by
  induction hrs generalizing held with
  | @nil i j hi hj =>
    simp only [editsFrom]
    rcases gap_cases hi hj with ⟨hgap, -, -⟩ | ⟨change, hchange, -, hgap⟩
    · rw [hgap]
      rcases hheld with rfl | rfl
      · rfl
      · rfl
    · rw [hgap]
      exact groupsFrom_last a b hheld hchange
  | @cons i j r rs hi hj hsize _ _ ih =>
    cases hapart with | cons hne hapart =>
    rcases gap_cases hi hj with ⟨-, hi', hj'⟩ | ⟨change, hchange, -, hgap⟩
    · exact absurd ⟨hi', hj'⟩ hne
    let c : Edit := ⟨change, i, r.left, j, r.right⟩
    let keep : Edit := ⟨.keep, r.left, r.left + r.size, r.right, r.right + r.size⟩
    let rest := editsFrom sizeA sizeB (r.left + r.size) (r.right + r.size) rs
    have hedits : editsFrom sizeA sizeB i j (r :: rs) = c :: keep :: rest := by
      rw [editsFrom, hgap]
      rfl
    have hchanges : changesOf (c :: keep :: rest) = c :: changesOf rest := by
      simp [changesOf, c, keep, hchange]
    have hfirst : hunkLines a b (touch r.left r.right :: c :: held).reverse =
        changeLines a b c := by
      rcases hheld with rfl | rfl
      · exact hunkLines_change_touch a b c
      · exact hunkLines_between_touches a b c
    rw [hedits, hchanges, trimEnd_cons_cons, groupsFrom_change _ hchange, List.map_cons]
    cases hr : rest with
    | nil =>
      rw [trimEnd, if_pos rfl, keepHead_zero (by omega) (by omega), groupsFrom_touch]
      exact congrArg (· :: []) hfirst
    | cons e es =>
      have hnext := ih (.inr rfl) hapart
      rw [trimEnd_cons_cons, groupsFrom_keep _ (by omega) (by omega), List.map_cons, hfirst]
      simp only [Int.natCast_add] at hnext
      rw [← hr]
      exact congrArg _ hnext

/-- A diff without context has one hunk for each change. -/
theorem map_hunkLines_groups_zero (a b : List String) :
    (groups 0 a b).map (hunkLines a b) = (changes a b).map (changeLines a b) := by
  have hbetween := commonRuns_between a b
  have hapart := commonRuns_apart a b
  unfold groups changes edits
  cases hruns : commonRuns a b with
  | nil =>
    rw [hruns] at hbetween
    have hgroups := groupsFrom_editsFrom a b (.inl rfl) hbetween .nil
    simp only [editsFrom] at hgroups ⊢
    rcases gap_cases (Nat.zero_le a.length) (Nat.zero_le b.length) with
      ⟨hgap, -, -⟩ | ⟨change, hchange, -, hgap⟩
    · rw [hgap]
      rfl
    · rw [hgap] at hgroups ⊢
      simp only [trimStart, if_neg hchange]
      exact hgroups
  | cons r rs =>
    rw [hruns] at hbetween hapart
    cases hapart with | cons hapart =>
    have hbetween' := hbetween
    cases hbetween' with | cons hi hj _ _ hrest =>
    rcases gap_cases hi hj with ⟨hgap, -, -⟩ | ⟨change, hchange, hne, hgap⟩
    · -- The texts begin with a run, of which trimming leaves nothing.
      have hnext := groupsFrom_editsFrom a b (.inr rfl) hrest hapart
      simp only [Int.natCast_add] at hnext
      simp only [editsFrom, hgap, List.nil_append, trimStart, if_true]
      rw [keepTail_zero (by omega) (by omega)]
      cases hr : editsFrom a.length b.length (r.left + r.size) (r.right + r.size) rs with
      | nil =>
        rw [trimEnd_touch, groupsFrom, if_neg (by simp [touch])]
        rfl
      | cons e es =>
        rw [hr] at hnext
        rw [trimEnd_cons_cons, groupsFrom, if_neg (by simp [touch])]
        exact hnext
    · have hgroups := groupsFrom_editsFrom a b (.inl rfl) hbetween (.cons hne hapart)
      simp only [editsFrom, hgap, List.cons_append, List.nil_append, trimStart,
        if_neg hchange] at hgroups ⊢
      exact hgroups

end RouteWatch.Diff
