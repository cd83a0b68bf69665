import RouteWatch.Proofs.Diff.Context
import RouteWatch.Proofs.Diff.Patch

/-!
# Diffs are patches

A diff with any number of lines of context is a patch from the lines of the one text to the lines of
the other. Each group of edits is one hunk: its header spans the edits, and its lines are those that
the edits keep, remove and add.
-/

namespace RouteWatch.Diff

open RouteWatch.Text

/-! ### The hunk of a group -/

/-- Lines with a mark. -/
def marked (mark : Mark) (ls : List String) : List PatchLine := ls.map (⟨mark, ·⟩)

/-- The lines of a hunk that an edit gives. -/
def patchLines (x y : List String) (e : Edit) : List PatchLine :=
  match e.change with
  | .keep => marked .keep (slice x e.left e.leftEnd)
  | .replace =>
    marked .remove (slice x e.left e.leftEnd) ++ marked .add (slice y e.right e.rightEnd)
  | .delete => marked .remove (slice x e.left e.leftEnd)
  | .insert => marked .add (slice y e.right e.rightEnd)

/-- The edit from where a group begins to where it ends. -/
def spanOf (g : List Edit) : Edit :=
  match g.head?, g.getLast? with
  | some first, some last => ⟨.replace, first.left, last.leftEnd, first.right, last.rightEnd⟩
  | _, _ => ⟨.replace, 0, 0, 0, 0⟩

/-- The hunk of a group. -/
def hunkOf (x y : List String) (g : List Edit) : PatchHunk :=
  ⟨Hunk.ofChange (spanOf g), g.flatMap (patchLines x y)⟩

variable {x y : List String} {i j p q : Int} {e : Edit} {es g : List Edit}

/-! ### The text of a hunk -/

private theorem map_written_marked (mark : Mark) (ls : List String) :
    (marked mark ls).map PatchLine.written =
      (ls.map (· ++ "\n")).map (hunkLine mark.text) := by
  simp only [marked, List.map_map, Function.comp_def, PatchLine.written, hunkLine,
    String.append_assoc]

private theorem editLines_eq (x y : List String) (e : Edit) :
    editLines (x.map (· ++ "\n")) (y.map (· ++ "\n")) e =
      (patchLines x y e).map PatchLine.written := by
  rw [editLines, patchLines]
  cases e.change <;> simp only [List.map_append, map_written_marked, slice_map] <;> rfl

private theorem rangeText_eq (start stop : Int) :
    rangeText start stop = rangeWritten (startNumber start stop) (stop - start) := by
  unfold rangeText rangeWritten startNumber
  by_cases hone : stop - start = 1
  · simp only [if_pos hone]
    rw [if_neg (by omega)]
  · by_cases hzero : stop - start = 0
    · simp only [if_neg hone, if_pos hzero]
      rw [if_pos (by omega)]
    · simp only [if_neg hone, if_neg hzero]
      rw [if_neg (by omega)]

/-- The header of a hunk is that of the edit which spans the group. -/
private theorem hunkLines_span (a b : List String) (hne : g ≠ []) :
    hunkLines a b g = (headerText (spanOf g) ++ "\n") :: g.flatMap (editLines a b) := by
  obtain ⟨first, hfirst⟩ := Option.ne_none_iff_exists'.mp (mt List.head?_eq_none_iff.mp hne)
  obtain ⟨last, hlast⟩ := Option.ne_none_iff_exists'.mp (mt List.getLast?_eq_none_iff.mp hne)
  have hheader := hunkHeader_eq ⟨.replace, first.left, last.leftEnd, first.right, last.rightEnd⟩
  rw [hunkLines, spanOf, hfirst, hlast]
  exact congrArg (· :: _) hheader

private theorem hunkLines_eq (hne : g ≠ []) :
    hunkLines (x.map (· ++ "\n")) (y.map (· ++ "\n")) g = (hunkOf x y g).written := by
  have hheader : headerText (spanOf g) ++ "\n" =
      "@@ -" ++ rangeWritten (hunkOf x y g).header.baseStart (hunkOf x y g).header.baseCount ++
        " +" ++ rangeWritten (hunkOf x y g).header.headStart (hunkOf x y g).header.headCount ++
          " @@\n" := by
    simp only [headerText, rangeText_eq, String.append_assoc]
    rfl
  rw [hunkLines_span _ _ hne, PatchHunk.written, hheader, hunkOf, List.map_flatMap]
  exact congrArg (_ :: ·) (List.flatMap_congr fun e _ ↦ editLines_eq x y e)

/-- The diff of two texts is the text of the patch of its groups. -/
private theorem unified_eq (base head path : String) (context : Int)
    (hne : ∀ g ∈ groups context (closedLines base) (closedLines head), g ≠ []) :
    unified base head path context =
      patchText path ((groups context (closedLines base) (closedLines head)).map
        (hunkOf (lines base) (lines head))) := by
  have hhunks : (groups context (closedLines base) (closedLines head)).flatMap
      (hunkLines (closedLines base) (closedLines head)) =
        ((groups context (closedLines base) (closedLines head)).map
          (hunkOf (lines base) (lines head))).flatMap PatchHunk.written := by
    rw [List.flatMap_map, closedLines_eq, closedLines_eq]
    rw [closedLines_eq, closedLines_eq] at hne
    exact List.flatMap_congr fun g hg ↦ hunkLines_eq (hne g hg)
  rw [unified, unifiedLines]
  split
  · next hnone =>
    rw [hnone]
    rfl
  · next hsome =>
    obtain ⟨g, gs, hgroups⟩ := List.exists_cons_of_ne_nil hsome
    rw [hhunks, hgroups, List.map_cons, String.join_cons, String.join_cons,
      ← String.append_assoc]
    rfl

/-! ### The span of a group -/

private theorem left_of_mem_head? (h : Leads x y i j es p q) :
    ∀ f ∈ es.head?, f.left = i ∧ f.right = j ∧ f.Tells x y := by
  cases h with
  | nil => exact nofun
  | cons hleft hright he _ =>
    rintro f ⟨⟩
    exact ⟨hleft, hright, he⟩

private theorem leftEnd_of_mem_getLast? (h : Leads x y i j es p q) :
    ∀ l ∈ es.getLast?, l.leftEnd = p ∧ l.rightEnd = q ∧ l.Tells x y := by
  induction h with
  | nil => exact nofun
  | @cons i j p q e es _ _ he hrest ih =>
    cases es with
    | nil =>
      cases hrest
      rintro l ⟨⟩
      exact ⟨rfl, rfl, he⟩
    | cons f es => exact ih

private theorem Leads.le (h : Leads x y i j es p q) : i ≤ p ∧ j ≤ q := by
  induction h with
  | nil => exact ⟨Int.le_refl _, Int.le_refl _⟩
  | cons hleft hright he _ ih =>
    have := he.left_le
    have := he.right_le
    omega

/-- A group goes from where its first edit begins to where its last ends, within both texts. -/
private theorem spanOf_eq (h : Leads x y i j es p q) (hne : es ≠ []) :
    spanOf es = ⟨.replace, i, p, j, q⟩ ∧ 0 ≤ i ∧ p ≤ x.length ∧ 0 ≤ j ∧ q ≤ y.length := by
  obtain ⟨first, hfirst⟩ := Option.ne_none_iff_exists'.mp (mt List.head?_eq_none_iff.mp hne)
  obtain ⟨last, hlast⟩ := Option.ne_none_iff_exists'.mp (mt List.getLast?_eq_none_iff.mp hne)
  obtain ⟨hi, hj, hf⟩ := left_of_mem_head? h first hfirst
  obtain ⟨hp, hq, hl⟩ := leftEnd_of_mem_getLast? h last hlast
  rw [spanOf, hfirst, hlast, ← hi, ← hj, ← hp, ← hq]
  exact ⟨rfl, hf.left_nonneg, hl.leftEnd_le, hf.right_nonneg, hl.rightEnd_le⟩

/-! ### The lines of a hunk -/

private theorem texts_marked (mark r : Mark) (ls : List String) :
    ((marked mark ls).filter (·.mark ≠ r)).map PatchLine.text = if mark = r then [] else ls := by
  by_cases h : mark = r
  · simp [marked, List.filter_map, Function.comp_def, h]
  · simp [marked, List.filter_map, Function.comp_def, h]

/-- The lines of an edit are those of its stretches. -/
private theorem texts_patchLines (he : e.Tells x y) :
    ((patchLines x y e).filter (·.mark ≠ .add)).map PatchLine.text = slice x e.left e.leftEnd ∧
      ((patchLines x y e).filter (·.mark ≠ .remove)).map PatchLine.text =
        slice y e.right e.rightEnd := by
  unfold patchLines
  split
  · next hkeep =>
    rw [texts_marked, texts_marked]
    exact ⟨rfl, he.keep hkeep⟩
  · rw [List.filter_append, List.filter_append, List.map_append, List.map_append, texts_marked,
      texts_marked, texts_marked, texts_marked]
    exact ⟨List.append_nil _, rfl⟩
  · next hdelete =>
    rw [texts_marked, texts_marked, ← he.delete hdelete, slice_self]
    exact ⟨rfl, rfl⟩
  · next hinsert =>
    rw [texts_marked, texts_marked, ← he.insert hinsert, slice_self]
    exact ⟨rfl, rfl⟩

/-- The lines of a group are those from where it begins to where it ends. -/
private theorem lines_hunkOf (h : Leads x y i j g p q) :
    (hunkOf x y g).baseLines = slice x i p ∧ (hunkOf x y g).headLines = slice y j q := by
  unfold hunkOf PatchHunk.baseLines PatchHunk.headLines
  induction h with
  | nil =>
    rw [slice_self, slice_self]
    exact ⟨rfl, rfl⟩
  | cons hleft hright he hrest ih =>
    subst hleft hright
    obtain ⟨hbase, hhead⟩ := texts_patchLines he
    dsimp only at ih ⊢
    rw [List.flatMap_cons, List.filter_append, List.filter_append, List.map_append,
      List.map_append, hbase, hhead, ih.1, ih.2,
      slice_append he.left_nonneg he.left_le hrest.le.1,
      slice_append he.right_nonneg he.right_le hrest.le.2]
    exact ⟨rfl, rfl⟩

/-- Groups that lead from one text to the other turn its lines into those of the other. -/
private theorem turns_of_grouped {least : Int} {gs : List (List Edit)}
    (h : Grouped x y least i j gs) :
    Turns least.toNat (1 + i) (1 + j) (slice x i x.length) (slice y j y.length)
      (gs.map (hunkOf x y)) := by
  induction h with
  | nil hsame =>
    rw [hsame.lines_eq]
    exact .nil
  | @cons least i j p q r s g gs hleast hsame hne hleads hrest ih =>
    obtain ⟨hspan, hp, hr, hq, hs⟩ := spanOf_eq hleads hne
    obtain ⟨hbase, hhead⟩ := lines_hunkOf hleads
    obtain ⟨hpr, hqs⟩ := hleads.le
    obtain ⟨hi, hip, hpx, hj, hjq, -⟩ := hsame.bounds
    have hlength := length_slice x hi hip hpx
    have hsameLength := hsame.length_eq
    have hbaseLength := length_slice x hp hpr hr
    have hheadLength := length_slice y hq hqs hs
    have hx : slice x i x.length =
        slice x i p ++ ((hunkOf x y g).baseLines ++ slice x r x.length) := by
      rw [hbase, slice_append hp hpr hr, slice_append hi hip hpx]
    have hy : slice y j y.length =
        slice x i p ++ ((hunkOf x y g).headLines ++ slice y s y.length) := by
      rw [hhead, slice_append hq hqs hs, hsame.lines_eq, slice_append hj hjq (by omega)]
    have hheader : (hunkOf x y g).header = Hunk.ofChange ⟨.replace, p, r, q, s⟩ := by
      rw [hunkOf, hspan]
    rw [hx, hy, List.map_cons]
    refine .cons ?_ ?_ ?_ ?_ ?_ ?_
    · omega
    · rw [hheader, baseFirst_ofChange]
      dsimp only
      omega
    · rw [hheader, headFirst_ofChange]
      dsimp only
      omega
    · rw [hheader, hbase]
      exact hbaseLength.symm
    · rw [hheader, hhead]
      exact hheadLength.symm
    · rw [hheader, baseNext_ofChange, headNext_ofChange, Int.add_comm, Int.add_comm s]
      exact ih

/-! ### Context -/

/-- The lines that an edit gives: at most as many as it keeps, or some that each change
something. -/
private structure LinesOf (e : Edit) (ls : List PatchLine) : Prop where
  kept : e.change = .keep → ls.length ≤ e.leftEnd - e.left
  changed : e.change ≠ .keep → ls ≠ [] ∧ ∀ l ∈ ls, l.mark ≠ .keep

private theorem marked_ne_nil {mark : Mark} {ls : List String} (h : (ls.length : Int) ≠ 0) :
    marked mark ls ≠ [] := by
  intro hnil
  rw [marked, List.map_eq_nil_iff] at hnil
  exact h (congrArg (fun ls ↦ (List.length ls : Int)) hnil)

private theorem mark_of_mem_marked {mark : Mark} {ls : List String} {l : PatchLine}
    (h : l ∈ marked mark ls) : l.mark = mark := by
  obtain ⟨t, -, rfl⟩ := List.mem_map.mp h
  rfl

private theorem linesOf_patchLines (he : e.Tells x y)
    (hoccupied : e.change ≠ .keep → e.Occupied) : LinesOf e (patchLines x y e) := by
  have hleft := length_slice x he.left_nonneg he.left_le he.leftEnd_le
  have hright := length_slice y he.right_nonneg he.right_le he.rightEnd_le
  unfold patchLines
  constructor
  · intro hkeep
    rw [hkeep]
    dsimp only
    rw [marked, List.length_map]
    omega
  · intro hchange
    have hsome := hoccupied hchange
    unfold Edit.Occupied at hsome
    split
    · next hkeep => exact absurd hkeep hchange
    · refine ⟨?_, fun l hl ↦ ?_⟩
      · intro hnil
        obtain ⟨hremoved, hadded⟩ := List.append_eq_nil_iff.mp hnil
        exact hsome ⟨by_contra fun h ↦ marked_ne_nil (by omega) hremoved,
          by_contra fun h ↦ marked_ne_nil (by omega) hadded⟩
      · rcases List.mem_append.mp hl with hl | hl
        · simp [mark_of_mem_marked hl]
        · simp [mark_of_mem_marked hl]
    · next hdelete =>
      have := he.delete hdelete
      exact ⟨marked_ne_nil (by omega), fun l hl ↦ by simp [mark_of_mem_marked hl]⟩
    · next hinsert =>
      have := he.insert hinsert
      exact ⟨marked_ne_nil (by omega), fun l hl ↦ by simp [mark_of_mem_marked hl]⟩

private theorem LinesOf.reverse {ls : List PatchLine} (h : LinesOf e ls) :
    LinesOf e ls.reverse where
  kept hkeep := by
    rw [List.length_reverse]
    exact h.kept hkeep
  changed hchange := by
    obtain ⟨hne, hmarks⟩ := h.changed hchange
    exact ⟨by simpa using hne, fun l hl ↦ hmarks l (List.mem_reverse.mp hl)⟩

/-- A line that changes something ends the kept lines. -/
private theorem leadingKept_append {l : PatchLine} (ls rest : List PatchLine)
    (hl : l.mark ≠ .keep) : leadingKept (ls ++ l :: rest) ≤ ls.length := by
  induction ls with
  | nil => simp [leadingKept, hl]
  | cons k ls ih =>
    unfold leadingKept at ih ⊢
    rw [List.cons_append, List.takeWhile_cons]
    split
    · exact Nat.succ_le_succ ih
    · exact Nat.zero_le _

/-- The kept lines that edits begin with are those of the first edit: the next one changes
something. -/
private theorem leadingKept_flatMap {n : Nat} {f : Edit → List PatchLine}
    (halternates : (es.map (·.change)).IsChain Alternate)
    (hstarts : ∀ e ∈ es.head?, e.KeepsAtMost n) (hlines : ∀ e ∈ es, LinesOf e (f e))
    (hchange : ∃ e ∈ es, e.change ≠ .keep) : leadingKept (es.flatMap f) ≤ n := by
  have begins {e : Edit} (he : e ∈ es) (h : e.change ≠ .keep) :
      ∃ l ls, f e = l :: ls ∧ l.mark ≠ .keep := by
    obtain ⟨hne, hmarks⟩ := (hlines e he).changed h
    obtain ⟨l, ls, hl⟩ := List.exists_cons_of_ne_nil hne
    exact ⟨l, ls, hl, hmarks l (by simp [hl])⟩
  obtain ⟨d, hd, hdchange⟩ := hchange
  cases es with
  | nil => exact absurd hd List.not_mem_nil
  | cons e es =>
    rw [List.flatMap_cons]
    by_cases hkeep : e.change = .keep
    · -- The stretch is kept, and the change after it begins with a line that is not.
      cases es with
      | nil => exact absurd (List.mem_singleton.mp hd ▸ hkeep) hdchange
      | cons g es =>
        rw [List.map_cons, List.map_cons, List.isChain_cons_cons] at halternates
        obtain ⟨l, ls, hl, hmark⟩ := begins (by simp) (halternates.1.mp hkeep)
        have hshort := hstarts e rfl hkeep
        have hlength := (hlines e (by simp)).kept hkeep
        rw [List.flatMap_cons, hl, List.cons_append]
        have := leadingKept_append (f e) (ls ++ es.flatMap f) hmark
        omega
    · obtain ⟨l, ls, hl, hmark⟩ := begins (by simp) hkeep
      rw [hl, List.cons_append]
      exact Nat.le_trans (leadingKept_append [] _ hmark) (Nat.zero_le n)

private theorem tells_of_mem (h : Leads x y i j es p q) (he : e ∈ es) : e.Tells x y := by
  induction h with
  | nil => exact absurd he List.not_mem_nil
  | cons _ _ hf _ ih =>
    rcases List.mem_cons.mp he with rfl | he
    · exact hf
    · exact ih he

private theorem context_hunkOf {n : Nat} (h : Leads x y i j g p q) (hbounded : Bounded n g)
    (hchange : ∃ e ∈ g, e.change ≠ .keep) :
    leadingKept (hunkOf x y g).body ≤ n ∧ leadingKept (hunkOf x y g).body.reverse ≤ n ∧
      ∃ l ∈ (hunkOf x y g).body, l.mark ≠ .keep := by
  have hlines {e : Edit} (he : e ∈ g) : LinesOf e (patchLines x y e) :=
    linesOf_patchLines (tells_of_mem h he) (hbounded.occupied e he)
  refine ⟨leadingKept_flatMap hbounded.alternates hbounded.starts (fun e ↦ hlines) hchange, ?_, ?_⟩
  · have hback : (g.reverse.map (·.change)).IsChain Alternate := by
      rw [List.map_reverse, List.isChain_reverse]
      exact hbounded.alternates.imp fun c d hcd ↦ ⟨fun hd hc ↦ hcd.mp hc hd, fun hc ↦ by
        by_contra hd
        exact hc (hcd.mpr hd)⟩
    rw [hunkOf, List.reverse_flatMap]
    refine leadingKept_flatMap hback ?_ (fun e he ↦ (hlines (List.mem_reverse.mp he)).reverse) ?_
    · rw [List.head?_reverse]
      exact hbounded.ends
    · obtain ⟨e, he, hchange⟩ := hchange
      exact ⟨e, List.mem_reverse.mpr he, hchange⟩
  · obtain ⟨e, he, hchange⟩ := hchange
    obtain ⟨hne, hmarks⟩ := (hlines he).changed hchange
    obtain ⟨l, ls, hl⟩ := List.exists_cons_of_ne_nil hne
    exact ⟨l, List.mem_flatMap.mpr ⟨e, he, by simp [hl]⟩, hmarks l (by simp [hl])⟩

private theorem exists_leads {least : Int} {gs : List (List Edit)} (h : Grouped x y least i j gs)
    (hg : g ∈ gs) : g ≠ [] ∧ ∃ p q r s, Leads x y p q g r s := by
  induction h with
  | nil => exact absurd hg List.not_mem_nil
  | cons _ _ hne hleads _ ih =>
    rcases List.mem_cons.mp hg with rfl | hg
    · exact ⟨hne, _, _, _, _, hleads⟩
    · exact ih hg

/-! ### Diffs with context -/

/-- The groups of two texts, which are found with the line ends in place, are groups of their
lines. -/
theorem grouped_lines (base head : String) (context : Nat) :
    Grouped (lines base) (lines head) 0 0 0
        (groups context (closedLines base) (closedLines head)) ∧
      ∀ g ∈ groups context (closedLines base) (closedLines head),
        Bounded context g ∧ ∃ e ∈ g, e.change ≠ .keep :=
  grouped_groups (Int.natCast_nonneg context) (length_closedLines base) (length_closedLines head)
    (runsBetween_lines base head)

/-- The headers of a diff are read as those of its hunks. -/
private theorem hunksOf_unified_context {base head path : String} (context : Nat)
    (hpath : '\n' ∉ path.toList) (hbase : (lines base).length < Nat.pow 10 digitLimit)
    (hhead : (lines head).length < Nat.pow 10 digitLimit) :
    hunksOf (unified base head path context) =
      .ok ((groups context (closedLines base) (closedLines head)).map
        fun g ↦ Hunk.ofChange (spanOf g)) := by
  obtain ⟨hgrouped, -⟩ := grouped_lines base head context
  have hspan {g : List Edit} (hg : g ∈ groups context (closedLines base) (closedLines head)) :
      (spanOf g).Forward ∧ (spanOf g).leftEnd ≤ (lines base).length ∧
        (spanOf g).rightEnd ≤ (lines head).length := by
    obtain ⟨hne, p, q, r, s, hleads⟩ := exists_leads hgrouped hg
    obtain ⟨heq, hp, hr, hq, hs⟩ := spanOf_eq hleads hne
    obtain ⟨hpr, hqs⟩ := hleads.le
    rw [heq]
    exact ⟨⟨hp, hpr, hq, hqs⟩, hr, hs⟩
  have hwrites : Writes (unifiedLines (closedLines base) (closedLines head) path context)
      ((groups context (closedLines base) (closedLines head)).map fun g ↦
        headerText (spanOf g)) := by
    apply writes_unifiedLines hpath
    rw [List.map_eq_flatMap]
    refine writes_flatMap fun g hg ↦ ?_
    rw [hunkLines_span _ _ (exists_leads hgrouped hg).1]
    have hlines : Writes (g.flatMap (editLines (closedLines base) (closedLines head)))
        (g.flatMap fun _ ↦ []) := writes_flatMap fun e _ ↦ writes_editLines base head e
    rw [List.flatMap_eq_nil_iff.mpr fun _ _ ↦ rfl] at hlines
    exact writes_append (writes_headerText (hspan hg).1) hlines
  rw [unified, hunksOf_join hwrites, List.mapM_map]
  apply mapM_eq_ok_of_forall
  intro g hg
  obtain ⟨hforward, hleft, hright⟩ := hspan hg
  have hl := Int.le_trans hforward.left_nonneg hforward.left_le
  have hr := Int.le_trans hforward.right_nonneg hforward.right_le
  apply ofHeader_headerText hforward
  · exact Nat.lt_of_le_of_lt (by omega) hbase
  · exact Nat.lt_of_le_of_lt (by omega) hhead

/-- The diff of two texts with any number of lines of context is the text of a patch that turns the
lines of the one into those of the other and back, and its headers are read as those of the patch.
Texts of so many lines that their numbers have too many digits are left out. -/
theorem unified_isPatch (base head path : String) (context : Nat) (hpath : '\n' ∉ path.toList)
    (hbase : (lines base).length < Nat.pow 10 4299)
    (hhead : (lines head).length < Nat.pow 10 4299) :
    ∃ hs : List PatchHunk, unified base head path context = patchText path hs ∧
      hunksOf (unified base head path context) = .ok (hs.map PatchHunk.header) ∧
      IsPatch context (lines base) (lines head) hs := by
  have hlimit : 4299 ≤ digitLimit := by decide
  -- the power is left as it is: nothing may evaluate it
  generalize 4299 = k at hlimit hbase hhead
  have hread := hunksOf_unified_context context hpath (lt_pow_of_le hlimit hbase)
    (lt_pow_of_le hlimit hhead)
  obtain ⟨hgrouped, hbounded⟩ := grouped_lines base head context
  have hturns := turns_of_grouped hgrouped
  rw [slice_all, slice_all] at hturns
  have hcontext {g : List Edit} (hg : g ∈ groups context (closedLines base) (closedLines head)) :
      leadingKept (hunkOf (lines base) (lines head) g).body ≤ context ∧
        leadingKept (hunkOf (lines base) (lines head) g).body.reverse ≤ context ∧
          ∃ l ∈ (hunkOf (lines base) (lines head) g).body, l.mark ≠ .keep := by
    obtain ⟨-, p, q, r, s, hleads⟩ := exists_leads hgrouped hg
    obtain ⟨hends, hchange⟩ := hbounded g hg
    exact context_hunkOf hleads hends hchange
  refine ⟨_, unified_eq base head path context fun g hg ↦ (exists_leads hgrouped hg).1, ?_,
    hturns.isPatch ?_ ?_ ?_⟩
  · rw [hread, List.map_map]
    rfl
  · exact List.forall_mem_map.mpr fun g hg ↦ (hcontext hg).1
  · exact List.forall_mem_map.mpr fun g hg ↦ (hcontext hg).2.1
  · exact List.forall_mem_map.mpr fun g hg ↦ (hcontext hg).2.2

/-- Two lines are replaced that are too far apart for one line of context to join their hunks, the
last of them without a line end. -/
theorem unified_isPatch_replaced_apart :
    '\n' ∉ "service/routes/x.js".toList ∧ (lines "a\nb\nc\nd\ne\n").length < Nat.pow 10 4299 ∧
      (lines "A\nb\nc\nd\nE").length < Nat.pow 10 4299 ∧
      ∃ hs : List PatchHunk,
        unified "a\nb\nc\nd\ne\n" "A\nb\nc\nd\nE" "service/routes/x.js" (1 : Nat) =
          patchText "service/routes/x.js" hs ∧
        hunksOf (unified "a\nb\nc\nd\ne\n" "A\nb\nc\nd\nE" "service/routes/x.js" (1 : Nat)) =
          .ok (hs.map PatchHunk.header) ∧
        IsPatch 1 (lines "a\nb\nc\nd\ne\n") (lines "A\nb\nc\nd\nE") hs := by
  have hlimit : 4299 ≠ 0 := by decide
  have hpath : '\n' ∉ "service/routes/x.js".toList := by decide
  have hbase : (lines "a\nb\nc\nd\ne\n").length < Nat.pow 10 4299 := by
    generalize 4299 = k at hlimit ⊢
    exact lt_pow_of_lt_ten hlimit (by decide)
  have hhead : (lines "A\nb\nc\nd\nE").length < Nat.pow 10 4299 := by
    generalize 4299 = k at hlimit ⊢
    exact lt_pow_of_lt_ten hlimit (by decide)
  exact ⟨hpath, hbase, hhead, unified_isPatch _ _ _ 1 hpath hbase hhead⟩

end RouteWatch.Diff
