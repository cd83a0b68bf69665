import RouteWatch.Route.Select

/-!
# First fit

Changed lines are given out in ascending order, each to the first block with room for it. The blocks
come to the same lines when they choose one after the other, each the first line in it that is left:
`choices` works through the blocks where the selection works through the lines. So a line that a
block goes without, or passes over for a later one, has gone to a block before it, and no other way
of giving out the lines has this property.
-/

namespace RouteWatch

open RouteWatch.Diff (LineSet)

variable {b c : Block} {blocks : List Block} {lines : List Int} {m n : Int}

/-! ### Ascending lists -/

/-- What is found first in an ascending list is the least of what is looked for. -/
theorem find?_ascending {p : Int → Bool} {ks : List Int} (h : ks.Pairwise (· < ·)) :
    ks.find? p = some m ↔ m ∈ ks ∧ p m = true ∧ ∀ n ∈ ks, p n = true → m ≤ n := by
  induction h with
  | nil => simp
  | @cons k ks hfirst _ ih =>
    rw [List.find?_cons]
    cases hk : p k with
    | true =>
      constructor
      · intro h
        obtain rfl := Option.some.inj h
        refine ⟨List.mem_cons_self .., hk, ?_⟩
        intro n hn _
        rcases List.mem_cons.mp hn with rfl | hn'
        · exact Int.le_refl n
        · exact Int.le_of_lt (hfirst n hn')
      · rintro ⟨hm, -, hleast⟩
        have hle := hleast k (List.mem_cons_self ..) hk
        rcases List.mem_cons.mp hm with rfl | hm'
        · rfl
        · have := hfirst m hm'
          omega
    | false =>
      have hne {n : Int} (hn : p n = true) : n ≠ k := by
        rintro rfl
        rw [hk] at hn
        cases hn
      rw [ih]
      constructor
      · rintro ⟨hm, hpm, hleast⟩
        refine ⟨List.mem_cons_of_mem _ hm, hpm, fun n hn hpn ↦ ?_⟩
        exact hleast n ((List.mem_cons.mp hn).resolve_left (hne hpn)) hpn
      · rintro ⟨hm, hpm, hleast⟩
        refine ⟨(List.mem_cons.mp hm).resolve_left (hne hpm), hpm, fun n hn ↦ ?_⟩
        exact hleast n (List.mem_cons_of_mem _ hn)

/-- What is left of an ascending list when the first of some members is taken out. -/
private theorem mem_eraseP_ascending {p : Int → Bool} {ks : List Int} (h : ks.Pairwise (· < ·)) :
    n ∈ ks.eraseP p ↔ n ∈ ks ∧ ks.find? p ≠ some n := by
  induction h with
  | nil => simp
  | @cons k ks hfirst _ ih =>
    cases hk : p k with
    | true =>
      rw [List.eraseP_cons_of_pos hk, List.find?_cons_of_pos hk, List.mem_cons]
      constructor
      · intro hn
        refine ⟨.inr hn, fun heq ↦ ?_⟩
        have := hfirst n hn
        have := Option.some.inj heq
        omega
      · rintro ⟨rfl | hn, hne⟩
        · exact absurd rfl hne
        · exact hn
    | false =>
      have hneg : ¬p k = true := by simp [hk]
      rw [List.eraseP_cons_of_neg hneg, List.find?_cons_of_neg hneg, List.mem_cons, ih,
        List.mem_cons]
      constructor
      · rintro (rfl | ⟨hn, hne⟩)
        · exact ⟨.inl rfl, fun heq ↦ hneg (List.find?_some heq)⟩
        · exact ⟨.inr hn, hne⟩
      · rintro ⟨rfl | hn, hne⟩
        · exact .inl rfl
        · exact .inr ⟨hn, hne⟩

/-- Taking out one member does not change which of others is found first. -/
private theorem find?_eraseP {p q : Int → Bool} (h : ∀ n, p n = true → q n = false)
    (ks : List Int) : (ks.eraseP p).find? q = ks.find? q := by
  induction ks with
  | nil => rfl
  | cons k ks ih =>
    cases hk : p k with
    | true => rw [List.eraseP_cons_of_pos hk, List.find?_cons_of_neg (by simp [h k hk])]
    | false =>
      rw [List.eraseP_cons_of_neg (by simp [hk]), List.find?_cons, List.find?_cons, ih]

/-! ### The choice of the blocks -/

/-- The lines that blocks choose one after the other, each the first line in it that is left. -/
def choices : List Block → List Int → List (Option Int)
  | [], _ => []
  | b :: bs, lines => lines.find? b.contains :: choices bs (lines.eraseP b.contains)

/-- Lines pass by a block that has one. -/
private theorem foldl_assign_some (slots : List Slot) :
    lines.foldl (fun slots line ↦ assign line slots) ((b, some m) :: slots) =
      (b, some m) :: lines.foldl (fun slots line ↦ assign line slots) slots := by
  induction lines generalizing slots with
  | nil => rfl
  | cons n ns ih => exact ih (assign n slots)

/-- The first block takes the first line in it, and the other lines go on to the blocks behind. -/
private theorem foldl_assign_none (slots : List Slot) :
    lines.foldl (fun slots line ↦ assign line slots) ((b, none) :: slots) =
      (b, lines.find? b.contains) ::
        (lines.eraseP b.contains).foldl (fun slots line ↦ assign line slots) slots := by
  induction lines generalizing slots with
  | nil => rfl
  | cons n ns ih =>
    rw [List.foldl_cons, assign]
    cases hn : b.contains n with
    | true =>
      rw [if_pos rfl, foldl_assign_some, List.find?_cons_of_pos hn, List.eraseP_cons_of_pos hn]
    | false =>
      have hneg : ¬b.contains n = true := by simp [hn]
      rw [if_neg Bool.false_ne_true, ih, List.find?_cons_of_neg hneg,
        List.eraseP_cons_of_neg hneg, List.foldl_cons]

/-- Giving out the lines one by one comes to what the blocks choose one by one. -/
private theorem foldl_assign_eq (blocks : List Block) (lines : List Int) :
    lines.foldl (fun slots line ↦ assign line slots) (blocks.map (·, none)) =
      blocks.zip (choices blocks lines) := by
  induction blocks generalizing lines with
  | nil =>
    induction lines with
    | nil => rfl
    | cons n ns ih => exact ih
  | cons b bs ih =>
    rw [List.map_cons, foldl_assign_none, ih, choices, List.zip_cons_cons]

/-- The candidates are the blocks that choose a line, each with the line that it chooses. -/
theorem changedBlocks_eq_choices (blocks : List Block) (lines : LineSet) :
    changedBlocks blocks lines =
      (blocks.zip (choices blocks lines.toList)).filterMap Slot.candidate? := by
  rw [changedBlocks, foldl_assign_eq]

/-- Two blocks that have no line in common. -/
def Block.Apart (b c : Block) : Prop := ∀ n, b.contains n = true → c.contains n = false

/-- Blocks that have no line in common choose as if each were the only one. -/
private theorem choices_of_apart (h : blocks.Pairwise Block.Apart) :
    choices blocks lines = blocks.map fun b ↦ lines.find? b.contains := by
  induction h generalizing lines with
  | nil => rfl
  | @cons b bs hapart _ ih =>
    rw [choices, ih, List.map_cons]
    congr 1
    exact List.map_congr_left fun c hc ↦ find?_eraseP (hapart c hc) lines

/-- Of blocks that have no line in common each one with a changed line is a candidate, at the first
changed line in it. -/
theorem changedBlocks_of_apart (h : blocks.Pairwise Block.Apart) (lines : LineSet) :
    changedBlocks blocks lines =
      blocks.filterMap fun b ↦ (lines.toList.find? b.contains).map (⟨b, ·⟩) := by
  rw [changedBlocks_eq_choices, choices_of_apart h, ← List.map_prod_left_eq_zip,
    List.filterMap_map]
  rfl

/-! ### First fit -/

/-- How lines are given to blocks by first fit: `chosen` holds the line of each block, by position,
where it has one. -/
structure FirstFit (blocks : List Block) (lines : List Int) (chosen : List (Option Int)) :
    Prop where
  length : chosen.length = blocks.length
  /-- A line that a block has is one of the lines, and lies in the block. -/
  fits : ∀ (i : Nat) b m, blocks[i]? = some b → chosen[i]? = some (some m) →
    m ∈ lines ∧ b.contains m = true
  /-- No line is given out twice. -/
  once : ∀ (i j : Nat) m, chosen[i]? = some (some m) → chosen[j]? = some (some m) → i = j
  /-- Each line in a block without a line has gone to an earlier block. -/
  complete : ∀ (i : Nat) b n, blocks[i]? = some b → chosen[i]? = some none → n ∈ lines →
    b.contains n = true → ∃ j < i, chosen[j]? = some (some n)
  /-- So has each line in a block that stands before the line of the block. -/
  least : ∀ (i : Nat) b m n, blocks[i]? = some b → chosen[i]? = some (some m) → n ∈ lines →
    b.contains n = true → n < m → ∃ j < i, chosen[j]? = some (some n)

namespace FirstFit

variable {chosen other : List (Option Int)}

private theorem nil (lines : List Int) : FirstFit [] lines [] where
  length := rfl
  fits _ _ _ h := nomatch h
  once _ _ _ h := nomatch h
  complete _ _ _ h := nomatch h
  least _ _ _ _ h := nomatch h

/-- The lines of first fit belong to the blocks. -/
private theorem mem_of_chosen (h : FirstFit blocks lines chosen) {i : Nat}
    (hi : chosen[i]? = some (some m)) : m ∈ lines := by
  have hlt : i < blocks.length := h.length ▸ (List.getElem?_eq_some_iff.mp hi).1
  exact (h.fits i blocks[i] m (List.getElem?_eq_getElem hlt) hi).1

/-- A block in front takes the first line in it, and the others are given what is left. -/
private theorem cons (hasc : lines.Pairwise (· < ·))
    (h : FirstFit blocks (lines.eraseP b.contains) chosen) :
    FirstFit (b :: blocks) lines (lines.find? b.contains :: chosen) where
  length := congrArg (· + 1) h.length
  fits
    | 0, c, m, hc, hm => by
      obtain rfl := Option.some.inj hc
      obtain ⟨hmem, hin, -⟩ := (find?_ascending hasc).mp (Option.some.inj hm)
      exact ⟨hmem, hin⟩
    | i + 1, c, m, hc, hm => by
      obtain ⟨hmem, hin⟩ := h.fits i c m hc hm
      exact ⟨((mem_eraseP_ascending hasc).mp hmem).1, hin⟩
  once
    | 0, 0, _, _, _ => rfl
    | 0, j + 1, m, hi, hj =>
      absurd (Option.some.inj hi) ((mem_eraseP_ascending hasc).mp (h.mem_of_chosen hj)).2
    | i + 1, 0, m, hi, hj =>
      absurd (Option.some.inj hj) ((mem_eraseP_ascending hasc).mp (h.mem_of_chosen hi)).2
    | i + 1, j + 1, m, hi, hj => congrArg (· + 1) (h.once i j m hi hj)
  complete
    | 0, c, n, hc, hnone, hn, hin => by
      obtain rfl := Option.some.inj hc
      exact absurd hin (by simpa using List.find?_eq_none.mp (Option.some.inj hnone) n hn)
    | i + 1, c, n, hc, hnone, hn, hin => by
      by_cases hfirst : lines.find? b.contains = some n
      · exact ⟨0, Nat.succ_pos i, congrArg some hfirst⟩
      · obtain ⟨j, hj, hgone⟩ :=
          h.complete i c n hc hnone ((mem_eraseP_ascending hasc).mpr ⟨hn, hfirst⟩) hin
        exact ⟨j + 1, Nat.succ_lt_succ hj, hgone⟩
  least
    | 0, c, m, n, hc, hm, hn, hin, hlt => by
      obtain rfl := Option.some.inj hc
      obtain ⟨-, -, hleast⟩ := (find?_ascending hasc).mp (Option.some.inj hm)
      exact absurd (hleast n hn hin) (Int.not_le.mpr hlt)
    | i + 1, c, m, n, hc, hm, hn, hin, hlt => by
      by_cases hfirst : lines.find? b.contains = some n
      · exact ⟨0, Nat.succ_pos i, congrArg some hfirst⟩
      · obtain ⟨j, hj, hgone⟩ :=
          h.least i c m n hc hm ((mem_eraseP_ascending hasc).mpr ⟨hn, hfirst⟩) hin hlt
        exact ⟨j + 1, Nat.succ_lt_succ hj, hgone⟩

/-- What blocks choose from ascending lines one after the other is a first fit. -/
private theorem of_choices (blocks : List Block) (h : lines.Pairwise (· < ·)) :
    FirstFit blocks lines (choices blocks lines) := by
  induction blocks generalizing lines with
  | nil => exact nil lines
  | cons b bs ih => exact cons h (ih (h.sublist List.eraseP_sublist))

/-- A first fit depends on the members of the list only. -/
private theorem congr {others : List Int} (h : ∀ n, n ∈ others ↔ n ∈ lines)
    (hfit : FirstFit blocks lines chosen) : FirstFit blocks others chosen where
  length := hfit.length
  fits i b m hb hm := (hfit.fits i b m hb hm).imp_left (h m).mpr
  once := hfit.once
  complete i b n hb hnone hn := hfit.complete i b n hb hnone ((h n).mp hn)
  least i b m n hb hm hn := hfit.least i b m n hb hm ((h n).mp hn)

/-- Where two first fits agree on the earlier blocks, a block does not have a line in one of them
that comes before what it has in the other. -/
private theorem not_before (h : FirstFit blocks lines chosen) (h' : FirstFit blocks lines other)
    {i : Nat} (hb : blocks[i]? = some b) (hearlier : ∀ j < i, chosen[j]? = other[j]?)
    (hm : chosen[i]? = some (some m)) :
    ∃ n, other[i]? = some (some n) ∧ n ≤ m := by
  obtain ⟨hmem, hin⟩ := h.fits i b m hb hm
  have hkept (hgone : ∃ j < i, other[j]? = some (some m)) : False := by
    obtain ⟨j, hj, hother⟩ := hgone
    have := h.once i j m hm ((hearlier j hj).trans hother)
    omega
  have hlt : i < other.length := by
    rw [h'.length]
    exact (List.getElem?_eq_some_iff.mp hb).1
  cases hother : other[i] with
  | none =>
    have hnone : other[i]? = some none := hother ▸ List.getElem?_eq_getElem hlt
    exact absurd (h'.complete i b m hb hnone hmem hin) hkept
  | some n =>
    have hsome : other[i]? = some (some n) := hother ▸ List.getElem?_eq_getElem hlt
    refine ⟨n, hsome, Int.not_lt.mp fun hmn ↦ hkept ?_⟩
    exact h'.least i b n m hb hsome hmem hin hmn

/-- There is only one first fit. The induction is on the position: both give the same lines to the
blocks before it. -/
private theorem unique (h : FirstFit blocks lines chosen) (h' : FirstFit blocks lines other) :
    other = chosen := by
  apply List.ext_getElem?
  intro i
  induction i using Nat.strongRecOn with
  | ind i hearlier =>
    cases hb : blocks[i]? with
    | none =>
      have hle := List.getElem?_eq_none_iff.mp hb
      rw [List.getElem?_eq_none (Nat.le_trans (Nat.le_of_eq h.length) hle),
        List.getElem?_eq_none (Nat.le_trans (Nat.le_of_eq h'.length) hle)]
    | some b =>
      have hlt := (List.getElem?_eq_some_iff.mp hb).1
      obtain ⟨line, hi⟩ : ∃ line, chosen[i]? = some line :=
        ⟨_, List.getElem?_eq_getElem (h.length ▸ hlt)⟩
      obtain ⟨line', hi'⟩ : ∃ line, other[i]? = some line :=
        ⟨_, List.getElem?_eq_getElem (h'.length ▸ hlt)⟩
      cases line with
      | some m =>
        obtain ⟨n, hn, hle⟩ := h.not_before h' hb (fun j hj ↦ (hearlier j hj).symm) hi
        obtain ⟨k, hk, hle'⟩ := h'.not_before h hb hearlier hn
        obtain rfl := Option.some.inj (Option.some.inj (hi.symm.trans hk))
        rw [hi, hn, Int.le_antisymm hle hle']
      | none =>
        cases line' with
        | none => rw [hi, hi']
        | some n =>
          obtain ⟨k, hk, -⟩ := h'.not_before h hb hearlier hi'
          cases hi.symm.trans hk

end FirstFit

/-- The least changed line of a block is the one that is found first. -/
private theorem find?_ofList_eq_min? (b : Block) (lines : List Int) :
    (LineSet.ofList lines).toList.find? b.contains = (lines.filter b.contains).min? := by
  ext m
  have hmem (n : Int) : n ∈ (LineSet.ofList lines).toList ↔ n ∈ lines := LineSet.mem_ofList
  rw [find?_ascending (LineSet.ofList lines).ascending, List.min?_eq_some_iff]
  simp only [List.mem_filter, hmem, and_imp, and_assoc]

/-- Changed lines are given to blocks by first fit, whichever blocks and lines these are: the
candidates are the blocks that have a line, in order, and there is only one first fit. So the
candidates depend on the set of the lines alone, and where no two blocks have a line in common, each
block that has changed lines is a candidate at the least of them. -/
theorem changedBlocks_firstFit (blocks : List Block) (lines : List Int) :
    (∃ chosen, FirstFit blocks lines chosen ∧
        (∀ other, FirstFit blocks lines other → other = chosen) ∧
        changedBlocks blocks (.ofList lines) =
          (blocks.zip chosen).filterMap fun s ↦ s.2.map (⟨s.1, ·⟩)) ∧
      (∀ others : List Int, (∀ n, n ∈ others ↔ n ∈ lines) →
        changedBlocks blocks (.ofList others) = changedBlocks blocks (.ofList lines)) ∧
      (blocks.Pairwise Block.Apart →
        changedBlocks blocks (.ofList lines) =
          blocks.filterMap fun b ↦ (lines.filter b.contains).min?.map (⟨b, ·⟩)) := by
  have hfit : FirstFit blocks lines (choices blocks (LineSet.ofList lines).toList) :=
    .congr (fun _ ↦ LineSet.mem_ofList.symm)
      (.of_choices blocks (LineSet.ofList lines).ascending)
  refine ⟨⟨_, hfit, fun other hother ↦ hfit.unique hother, changedBlocks_eq_choices ..⟩,
    fun others h ↦ ?_, fun hapart ↦ ?_⟩
  · have hset : LineSet.ofList others = LineSet.ofList lines :=
      LineSet.ext fun n ↦ by rw [LineSet.mem_ofList, LineSet.mem_ofList, h]
    rw [hset]
  · rw [changedBlocks_of_apart hapart]
    simp only [find?_ofList_eq_min?]

/-- Two blocks that have no line in common, the later one first, and lines of which one is listed
twice: each block is a candidate at its least line, and in another order the lines say the same. -/
theorem changedBlocks_firstFit_unordered :
    changedBlocks [⟨5, 6, "r.b(\n);", .multiLine⟩, ⟨2, 3, "r.a(\n);", .multiLine⟩]
        (.ofList [6, 3, 5, 6]) =
      [⟨⟨5, 6, "r.b(\n);", .multiLine⟩, 5⟩, ⟨⟨2, 3, "r.a(\n);", .multiLine⟩, 3⟩] ∧
      changedBlocks [⟨5, 6, "r.b(\n);", .multiLine⟩, ⟨2, 3, "r.a(\n);", .multiLine⟩]
          (.ofList [3, 5, 6]) =
        changedBlocks [⟨5, 6, "r.b(\n);", .multiLine⟩, ⟨2, 3, "r.a(\n);", .multiLine⟩]
          (.ofList [6, 3, 5, 6]) := by
  have hapart : Block.Apart ⟨5, 6, "r.b(\n);", .multiLine⟩ ⟨2, 3, "r.a(\n);", .multiLine⟩ := by
    intro n hn
    rw [Block.contains_iff] at hn
    rw [Bool.eq_false_iff, ne_eq, Block.contains_iff]
    dsimp only at hn ⊢
    omega
  refine ⟨((changedBlocks_firstFit _ _).2.2 ?_).trans rfl,
    (changedBlocks_firstFit _ _).2.1 _ fun n ↦ ?_⟩
  · exact List.pairwise_cons.mpr
      ⟨fun c hc ↦ List.mem_singleton.mp hc ▸ hapart, List.pairwise_singleton ..⟩
  · simp only [List.mem_cons, List.not_mem_nil, or_false]
    omega

/-- A line in a block that has one already goes on to the next block that it lies in, and a block
all of whose lines have gone to others is no candidate. -/
example :
    changedBlocks [⟨2, 3, "r.a(\n);", .multiLine⟩, ⟨1, 9, "r.b(", .incomplete⟩,
        ⟨2, 3, "r.a(\n);", .multiLine⟩] ⟨[2, 3, 7], by decide⟩ =
      [⟨⟨2, 3, "r.a(\n);", .multiLine⟩, 2⟩, ⟨⟨1, 9, "r.b(", .incomplete⟩, 3⟩] := rfl

end RouteWatch
