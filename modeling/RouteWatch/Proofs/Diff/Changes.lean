import RouteWatch.Diff.Edit
import RouteWatch.Proofs.Diff.CommonRuns

/-!
# Changes

The edits between two texts that change something lie between the runs that the texts have in
common: within both texts, in order, and with at least one common line between two of them.
-/

namespace RouteWatch.Diff

/-- The edits that change something. -/
def changesOf (es : List Edit) : List Edit := es.filter (·.change ≠ .keep)

/-- The changes that make one text into the other. -/
def changes (a b : List String) : List Edit := changesOf (edits a b)

/-- A change from one position up to a later one in both texts, neither before the start. -/
structure Edit.Forward (e : Edit) : Prop where
  left_nonneg : 0 ≤ e.left
  left_le : e.left ≤ e.leftEnd
  right_nonneg : 0 ≤ e.right
  right_le : e.right ≤ e.rightEnd

/-- A change within the bounds of both texts that is not empty on both sides. -/
structure Edit.Within (sizeA sizeB : Nat) (e : Edit) : Prop extends e.Forward where
  leftEnd_le : e.leftEnd ≤ sizeA
  rightEnd_le : e.rightEnd ≤ sizeB
  not_empty : ¬(e.left = e.leftEnd ∧ e.right = e.rightEnd)

/-! ### Changes between runs -/

/-- Between two positions there is one change, or both are the same. -/
theorem gap_cases {i j i' j' : Nat} (hi : i ≤ i') (hj : j ≤ j') :
    (gap i j i' j' = [] ∧ i = i' ∧ j = j') ∨
      ∃ change : Change, change ≠ .keep ∧ ¬(i = i' ∧ j = j') ∧
        gap i j i' j' = [⟨change, i, i', j, j'⟩] := by
  unfold gap
  split
  · exact .inr ⟨.replace, by decide, by omega, rfl⟩
  · split
    · exact .inr ⟨.delete, by decide, by omega, rfl⟩
    · split
      · exact .inr ⟨.insert, by decide, by omega, rfl⟩
      · exact .inl ⟨rfl, by omega, by omega⟩

theorem changesOf_append (es fs : List Edit) :
    changesOf (es ++ fs) = changesOf es ++ changesOf fs :=
  List.filter_append ..

theorem changesOf_keep (i i' j j' : Int) (es : List Edit) :
    changesOf (⟨.keep, i, i', j, j'⟩ :: es) = changesOf es := by
  simp [changesOf]

/-- What changes between two positions is one change, where there is something between them. -/
theorem changesOf_gap_cases {i j i' j' : Nat} (hi : i ≤ i') (hj : j ≤ j') :
    (changesOf (gap i j i' j') = [] ∧ i = i' ∧ j = j') ∨
      ∃ change : Change, ¬(i = i' ∧ j = j') ∧
        changesOf (gap i j i' j') = [⟨change, i, i', j, j'⟩] := by
  rcases gap_cases hi hj with ⟨hgap, hi', hj'⟩ | ⟨change, hchange, hne, hgap⟩
  · rw [hgap]
    exact .inl ⟨rfl, hi', hj'⟩
  · rw [hgap]
    exact .inr ⟨change, hne, by simp [changesOf, hchange]⟩

private theorem eq_of_mem_changesOf_gap {i j i' j' : Nat} (hi : i ≤ i') (hj : j ≤ j') {e : Edit}
    (he : e ∈ changesOf (gap i j i' j')) :
    e.left = i ∧ e.leftEnd = i' ∧ e.right = j ∧ e.rightEnd = j' ∧ ¬(i = i' ∧ j = j') := by
  rcases changesOf_gap_cases hi hj with ⟨hgap, -, -⟩ | ⟨change, hne, hgap⟩
  · rw [hgap] at he
    exact absurd he List.not_mem_nil
  · rw [hgap, List.mem_singleton] at he
    rw [he]
    exact ⟨rfl, rfl, rfl, rfl, hne⟩

private theorem pairwise_changesOf_gap {i j i' j' : Nat} (hi : i ≤ i') (hj : j ≤ j')
    (p : Edit → Edit → Prop) : (changesOf (gap i j i' j')).Pairwise p := by
  rcases changesOf_gap_cases hi hj with ⟨hgap, -, -⟩ | ⟨change, -, hgap⟩
  · rw [hgap]
    exact .nil
  · rw [hgap]
    exact List.pairwise_singleton ..

variable {x y : Array String} {sizeA sizeB i j : Nat} {rs : List Run} {e : Edit}

/-- The changes after the positions `i` and `j`, given the runs that follow there, lie behind
these positions. -/
theorem within_of_mem_changesOf (hrs : RunsBetween x y sizeA sizeB i j rs)
    (he : e ∈ changesOf (editsFrom sizeA sizeB i j rs)) :
    e.Within sizeA sizeB ∧ i ≤ e.left ∧ j ≤ e.right := by
  induction hrs with
  | nil hi hj =>
    obtain ⟨h₁, h₂, h₃, h₄, hne⟩ := eq_of_mem_changesOf_gap hi hj he
    refine ⟨⟨⟨?_, ?_, ?_, ?_⟩, ?_, ?_, ?_⟩, ?_, ?_⟩ <;> omega
  | cons hi hj _ _ hrest ih =>
    have hbounds := runsBetween_le hrest
    rw [editsFrom, changesOf_append, changesOf_keep, List.mem_append] at he
    rcases he with he | he
    · obtain ⟨h₁, h₂, h₃, h₄, hne⟩ := eq_of_mem_changesOf_gap hi hj he
      refine ⟨⟨⟨?_, ?_, ?_, ?_⟩, ?_, ?_, ?_⟩, ?_, ?_⟩ <;> omega
    · obtain ⟨hwithin, hleft, hright⟩ := ih he
      exact ⟨hwithin, by omega, by omega⟩

/-- Runs that follow two positions lie behind them. -/
theorem RunsBetween.le_of_mem (hrs : RunsBetween x y sizeA sizeB i j rs) {r : Run}
    (hr : r ∈ rs) : i ≤ r.left ∧ j ≤ r.right := by
  induction hrs with
  | nil => exact absurd hr List.not_mem_nil
  | cons hi hj _ _ _ ih =>
    rcases List.mem_cons.mp hr with rfl | hr
    · exact ⟨hi, hj⟩
    · have := ih hr
      omega

/-- A change lies before or behind a run, in both texts. -/
theorem avoids_of_mem_changesOf (hrs : RunsBetween x y sizeA sizeB i j rs)
    (he : e ∈ changesOf (editsFrom sizeA sizeB i j rs)) {r : Run} (hr : r ∈ rs) :
    e.leftEnd ≤ r.left ∧ e.rightEnd ≤ r.right ∨
      (r.left + r.size : Nat) ≤ e.left ∧ (r.right + r.size : Nat) ≤ e.right := by
  induction hrs with
  | nil => exact absurd hr List.not_mem_nil
  | cons hi hj _ _ hrest ih =>
    rw [editsFrom, changesOf_append, changesOf_keep, List.mem_append] at he
    rcases he with he | he
    · obtain ⟨-, h₁, -, h₂, -⟩ := eq_of_mem_changesOf_gap hi hj he
      rcases List.mem_cons.mp hr with rfl | hr
      · exact .inl ⟨by omega, by omega⟩
      · have := hrest.le_of_mem hr
        exact .inl ⟨by omega, by omega⟩
    · rcases List.mem_cons.mp hr with rfl | hr
      · exact .inr (within_of_mem_changesOf hrest he).2
      · exact ih he hr

/-- Between two changes there is a line in both texts: the run that separates them has one. -/
theorem pairwise_changesOf (hrs : RunsBetween x y sizeA sizeB i j rs) :
    (changesOf (editsFrom sizeA sizeB i j rs)).Pairwise fun e f ↦
      e.leftEnd < f.left ∧ e.rightEnd < f.right := by
  induction hrs with
  | nil hi hj => exact pairwise_changesOf_gap hi hj _
  | cons hi hj hsize _ hrest ih =>
    rw [editsFrom, changesOf_append, changesOf_keep, List.pairwise_append]
    refine ⟨pairwise_changesOf_gap hi hj _, ih, ?_⟩
    intro e he f hf
    obtain ⟨-, h₁, -, h₂, -⟩ := eq_of_mem_changesOf_gap hi hj he
    obtain ⟨-, h₃, h₄⟩ := within_of_mem_changesOf hrest hf
    omega

/-! ### Changes of two texts -/

variable {a b : List String}

/-- Each change lies within both texts. -/
theorem within_of_mem_changes (he : e ∈ changes a b) : e.Within a.length b.length :=
  (within_of_mem_changesOf (commonRuns_between a b) he).1

/-- Between two changes there is a line in both texts. -/
theorem pairwise_changes (a b : List String) :
    (changes a b).Pairwise fun e f ↦ e.leftEnd < f.left ∧ e.rightEnd < f.right :=
  pairwise_changesOf (commonRuns_between a b)

end RouteWatch.Diff
