import RouteWatch.Diff.Unified
import RouteWatch.Proofs.Diff.Changes

/-!
# Edits that lead from one text to the other

An edit says of a stretch of each of two texts that both have the same lines, or that one takes the
place of the other. The edits between two texts lead from their starts to their ends: each goes on
where the one before it ended. `slice` gives the lines of a stretch.
-/

namespace RouteWatch.Diff

/-! ### Slices -/

section Slices

variable {α : Type} {xs : List α} {i j k : Int}

private theorem clampTo_of_nonneg {size : Nat} (h : 0 ≤ i) :
    clampTo size i = min i.toNat size := by
  rw [clampTo, if_neg (by omega)]

/-- Two slices of which one ends where the other begins are one slice. -/
theorem slice_append (hi : 0 ≤ i) (hij : i ≤ j) (hjk : j ≤ k) :
    slice xs i j ++ slice xs j k = slice xs i k := by
  simp only [slice, clampTo_of_nonneg hi, clampTo_of_nonneg (Int.le_trans hi hij),
    clampTo_of_nonneg (Int.le_trans hi (Int.le_trans hij hjk))]
  rw [show min k.toNat xs.length - min i.toNat xs.length =
      (min j.toNat xs.length - min i.toNat xs.length) +
        (min k.toNat xs.length - min j.toNat xs.length) by omega, List.take_add, List.drop_drop,
    show min i.toNat xs.length + (min j.toNat xs.length - min i.toNat xs.length) =
      min j.toNat xs.length by omega]

theorem length_slice (xs : List α) (hi : 0 ≤ i) (hij : i ≤ j) (hj : j ≤ xs.length) :
    ((slice xs i j).length : Int) = j - i := by
  rw [slice, clampTo_of_nonneg hi, clampTo_of_nonneg (Int.le_trans hi hij), List.length_take,
    List.length_drop]
  omega

@[simp] theorem slice_self : slice xs i i = [] := by simp [slice]

theorem slice_all : slice xs 0 xs.length = xs := by
  rw [slice, clampTo_of_nonneg (Int.le_refl 0), clampTo_of_nonneg (Int.natCast_nonneg _)]
  simp

end Slices

/-! ### Edits that lead from one text to the other -/

/-- What an edit says of two texts: a kept stretch has the same lines in both, and a text in which
nothing is deleted or inserted has no line in the stretch. -/
structure Edit.Tells (x y : List String) (e : Edit) : Prop extends e.Forward where
  leftEnd_le : e.leftEnd ≤ x.length
  rightEnd_le : e.rightEnd ≤ y.length
  keep : e.change = .keep → slice x e.left e.leftEnd = slice y e.right e.rightEnd
  delete : e.change = .delete → e.right = e.rightEnd
  insert : e.change = .insert → e.left = e.leftEnd

/-- Between the positions `i` and `p` of the one text and `j` and `q` of the other stand the same
lines. -/
def Same (x y : List String) (i p j q : Int) : Prop := Edit.Tells x y ⟨.keep, i, p, j, q⟩

/-- Edits that lead from two positions to two others, each from where the one before it ended. -/
inductive Leads (x y : List String) : Int → Int → List Edit → Int → Int → Prop
  | nil {i j : Int} : Leads x y i j [] i j
  | cons {i j p q : Int} {e : Edit} {es : List Edit} (hleft : e.left = i) (hright : e.right = j)
      (he : e.Tells x y) (hrest : Leads x y e.leftEnd e.rightEnd es p q) :
      Leads x y i j (e :: es) p q

variable {x y : List String} {i j p q r s : Int} {e : Edit} {es fs : List Edit}

theorem Edit.Tells.same (he : e.Tells x y) (hkeep : e.change = .keep) :
    Same x y e.left e.leftEnd e.right e.rightEnd where
  left_nonneg := he.left_nonneg
  left_le := he.left_le
  right_nonneg := he.right_nonneg
  right_le := he.right_le
  leftEnd_le := he.leftEnd_le
  rightEnd_le := he.rightEnd_le
  keep _ := he.keep hkeep
  delete h := nomatch h
  insert h := nomatch h

namespace Same

theorem lines_eq (h : Same x y i p j q) : slice x i p = slice y j q := h.keep rfl

theorem bounds (h : Same x y i p j q) :
    0 ≤ i ∧ i ≤ p ∧ p ≤ x.length ∧ 0 ≤ j ∧ j ≤ q ∧ q ≤ y.length :=
  ⟨h.left_nonneg, h.left_le, h.leftEnd_le, h.right_nonneg, h.right_le, h.rightEnd_le⟩

theorem length_eq (h : Same x y i p j q) : p - i = q - j := by
  rw [← length_slice x h.left_nonneg h.left_le h.leftEnd_le,
    ← length_slice y h.right_nonneg h.right_le h.rightEnd_le]
  exact congrArg (fun ls ↦ (List.length ls : Int)) h.lines_eq

theorem of_eq (hi : 0 ≤ i) (hip : i ≤ p) (hp : p ≤ x.length) (hj : 0 ≤ j) (hjq : j ≤ q)
    (hq : q ≤ y.length) (hlines : slice x i p = slice y j q) : Same x y i p j q :=
  ⟨⟨hi, hip, hj, hjq⟩, hp, hq, fun _ ↦ hlines, nofun, nofun⟩

/-- The same lines up to two positions and the same lines from there on. -/
theorem append (h : Same x y i p j q) (h' : Same x y p r q s) : Same x y i r j s := by
  refine .of_eq h.left_nonneg (Int.le_trans h.left_le h'.left_le) h'.leftEnd_le h.right_nonneg
    (Int.le_trans h.right_le h'.right_le) h'.rightEnd_le ?_
  rw [← slice_append h.left_nonneg h.left_le h'.left_le,
    ← slice_append h.right_nonneg h.right_le h'.right_le, h.lines_eq, h'.lines_eq]

/-- The same lines are the same on both sides of any line of them. -/
theorem cut (h : Same x y i p j q) {k : Int} (hk : 0 ≤ k) (hkp : k ≤ p - i) :
    Same x y i (i + k) j (j + k) ∧ Same x y (i + k) p (j + k) q := by
  obtain ⟨hi, -, hp, hj, -, hq⟩ := h.bounds
  have hlength := h.length_eq
  have hlines := h.lines_eq
  rw [← slice_append hi (show i ≤ i + k by omega) (by omega),
    ← slice_append hj (show j ≤ j + k by omega) (by omega)] at hlines
  have hx := length_slice x hi (show i ≤ i + k by omega) (by omega)
  have hy := length_slice y hj (show j ≤ j + k by omega) (by omega)
  obtain ⟨hfirst, hlast⟩ := List.append_inj hlines (by omega)
  exact ⟨of_eq hi (by omega) (by omega) hj (by omega) (by omega) hfirst,
    of_eq (by omega) (by omega) hp (by omega) (by omega) hq hlast⟩

/-- Nothing stands between two positions of either text. -/
theorem refl (h : Same x y i p j q) : Same x y i i j j :=
  .of_eq h.left_nonneg (Int.le_refl i) (Int.le_trans h.left_le h.leftEnd_le) h.right_nonneg
    (Int.le_refl j) (Int.le_trans h.right_le h.rightEnd_le) (by simp)

end Same

namespace Leads

theorem append (h : Leads x y i j es p q) (h' : Leads x y p q fs r s) :
    Leads x y i j (es ++ fs) r s := by
  induction h with
  | nil => exact h'
  | cons hleft hright he _ ih => exact .cons hleft hright he (ih h')

theorem singleton (he : e.Tells x y) : Leads x y e.left e.right [e] e.leftEnd e.rightEnd :=
  .cons rfl rfl he .nil

/-- The positions that edits lead from lie within both texts if those that they lead to do. -/
theorem refl_start (h : Leads x y i j es p q) (hend : Same x y p p q q) : Same x y i i j j := by
  cases h with
  | nil => exact hend
  | cons hleft hright he _ =>
    subst hleft hright
    exact .of_eq he.left_nonneg (Int.le_refl _) (Int.le_trans he.left_le he.leftEnd_le)
      he.right_nonneg (Int.le_refl _) (Int.le_trans he.right_le he.rightEnd_le) (by simp)

end Leads

/-! ### The edits of two texts -/

private theorem leads_gap {i j i' j' : Nat} (hi : i ≤ i') (hj : j ≤ j') (hi' : i' ≤ x.length)
    (hj' : j' ≤ y.length) : Leads x y i j (gap i j i' j') i' j' := by
  have single (change : Change) (hkeep : change ≠ .keep) (hdelete : change = .delete → j = j')
      (hinsert : change = .insert → i = i') : Leads x y i j [⟨change, i, i', j, j'⟩] i' j' := by
    refine .cons rfl rfl ⟨⟨?_, ?_, ?_, ?_⟩, ?_, ?_, fun h ↦ absurd h hkeep, ?_, ?_⟩ .nil
    all_goals dsimp only
    · exact Int.natCast_nonneg i
    · exact Int.ofNat_le.mpr hi
    · exact Int.natCast_nonneg j
    · exact Int.ofNat_le.mpr hj
    · exact Int.ofNat_le.mpr hi'
    · exact Int.ofNat_le.mpr hj'
    · exact fun h ↦ congrArg _ (hdelete h)
    · exact fun h ↦ congrArg _ (hinsert h)
  unfold gap
  split
  · exact single .replace (by decide) (fun h ↦ nomatch h) (fun h ↦ nomatch h)
  · split
    · exact single .delete (by decide) (fun _ ↦ by omega) (fun h ↦ nomatch h)
    · split
      · exact single .insert (by decide) (fun h ↦ nomatch h) (fun _ ↦ by omega)
      · rw [show i = i' by omega, show j = j' by omega]
        exact .nil

private theorem slice_eq_of_agrees {r : Run} (h : r.Agrees x.toArray y.toArray)
    (hleft : r.left + r.size ≤ x.length) (hright : r.right + r.size ≤ y.length) :
    slice x r.left (r.left + r.size) = slice y r.right (r.right + r.size) := by
  apply List.ext_getElem?
  intro k
  simp only [slice]
  rw [clampTo_of_nonneg (by omega), clampTo_of_nonneg (by omega), clampTo_of_nonneg (by omega),
    clampTo_of_nonneg (by omega), show min (r.left : Int).toNat x.length = r.left by omega,
    show min (r.right : Int).toNat y.length = r.right by omega,
    show min ((r.left : Int) + r.size).toNat x.length - r.left = r.size by omega,
    show min ((r.right : Int) + r.size).toNat y.length - r.right = r.size by omega,
    List.getElem?_take, List.getElem?_take]
  split
  · next hk =>
    have := h k hk
    rw [List.getElem?_drop, List.getElem?_drop]
    simpa only [List.getElem?_toArray] using this
  · rfl

private theorem same_of_agrees {r : Run} (h : r.Agrees x.toArray y.toArray)
    (hleft : r.left + r.size ≤ x.length) (hright : r.right + r.size ≤ y.length) :
    Same x y r.left (r.left + r.size) r.right (r.right + r.size) :=
  .of_eq (by omega) (by omega) (by omega) (by omega) (by omega) (by omega)
    (slice_eq_of_agrees h hleft hright)

/-- The edits between two texts lead from the starts to the ends of both. -/
theorem leads_editsFrom {i j : Nat} {rs : List Run}
    (h : RunsBetween x.toArray y.toArray x.length y.length i j rs) :
    Leads x y i j (editsFrom x.length y.length i j rs) x.length y.length := by
  induction h with
  | nil hi hj => exact leads_gap hi hj (Nat.le_refl _) (Nat.le_refl _)
  | cons hi hj _ hagrees hrest ih =>
    obtain ⟨hleft, hright⟩ := runsBetween_le hrest
    rw [editsFrom]
    refine (leads_gap hi hj (by omega) (by omega)).append ?_
    exact .cons rfl rfl (same_of_agrees hagrees hleft hright) ih

end RouteWatch.Diff
