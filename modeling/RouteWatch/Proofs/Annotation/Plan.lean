import RouteWatch.Annotation.Plan

/-!
# What a plan keeps

A draft is kept where its key is new: no annotation has it and no draft before it. So a plan
holds each key once, and a plan that knows of more annotations is the same plan without their
drafts.
-/

namespace RouteWatch

open RouteWatch.Diff (Hunk anchorLine)

variable {seen : List AnnotationKey} {ds : List Draft} {d : Draft}

/-- A draft with a key that has been seen is left out. -/
theorem planFrom_cons_of_mem (h : d.key ∈ seen) :
    planFrom seen (d :: ds) =
      ⟨(planFrom seen ds).drafts, (planFrom seen ds).skipped + 1⟩ := by
  rw [planFrom, if_pos (List.contains_iff_mem.mpr h)]

/-- A draft with a key that has not been seen is kept. -/
theorem planFrom_cons_of_notMem (h : d.key ∉ seen) :
    planFrom seen (d :: ds) =
      ⟨d :: (planFrom (d.key :: seen) ds).drafts, (planFrom (d.key :: seen) ds).skipped⟩ := by
  rw [planFrom, if_neg (fun hc ↦ h (List.contains_iff_mem.mp hc))]

/-- The order of the keys that have been seen does not matter. -/
theorem planFrom_congr {seen' : List AnnotationKey} (h : ∀ k, k ∈ seen ↔ k ∈ seen') :
    planFrom seen ds = planFrom seen' ds := by
  induction ds generalizing seen seen' with
  | nil => rfl
  | cons d ds ih =>
    by_cases hd : d.key ∈ seen
    · rw [planFrom_cons_of_mem hd, planFrom_cons_of_mem ((h _).mp hd), ih h]
    · have hcons (k : AnnotationKey) : k ∈ d.key :: seen ↔ k ∈ d.key :: seen' := by
        rw [List.mem_cons, List.mem_cons, h k]
      rw [planFrom_cons_of_notMem hd, planFrom_cons_of_notMem (fun hd' ↦ hd ((h _).mpr hd')),
        ih hcons]

/-- The drafts that are kept: the first ones of their keys, where these have not been seen. -/
theorem mem_drafts_planFrom :
    d ∈ (planFrom seen ds).drafts ↔
      d.key ∉ seen ∧ ∃ before after, ds = before ++ d :: after ∧ d.key ∉ before.map Draft.key := by
  induction ds generalizing seen with
  | nil => simp [planFrom]
  | cons e ds ih =>
    by_cases he : e.key ∈ seen
    · rw [planFrom_cons_of_mem he, ih]
      constructor
      · rintro ⟨hd, before, after, rfl, hbefore⟩
        refine ⟨hd, e :: before, after, rfl, ?_⟩
        rw [List.map_cons, List.mem_cons, not_or]
        exact ⟨fun heq ↦ hd (heq ▸ he), hbefore⟩
      · rintro ⟨hd, before, after, hds, hbefore⟩
        cases before with
        | nil =>
          rw [List.nil_append, List.cons.injEq] at hds
          exact absurd (hds.1 ▸ he) hd
        | cons f before =>
          rw [List.cons_append, List.cons.injEq] at hds
          rw [List.map_cons, List.mem_cons, not_or] at hbefore
          exact ⟨hd, before, after, hds.2, hbefore.2⟩
    · rw [planFrom_cons_of_notMem he, List.mem_cons, ih, List.mem_cons, not_or]
      constructor
      · rintro (rfl | ⟨⟨hne, hd⟩, before, after, rfl, hbefore⟩)
        · exact ⟨he, [], ds, rfl, List.not_mem_nil⟩
        · refine ⟨hd, e :: before, after, rfl, ?_⟩
          rw [List.map_cons, List.mem_cons, not_or]
          exact ⟨hne, hbefore⟩
      · rintro ⟨hd, before, after, hds, hbefore⟩
        cases before with
        | nil =>
          rw [List.nil_append, List.cons.injEq] at hds
          exact .inl hds.1.symm
        | cons f before =>
          rw [List.cons_append, List.cons.injEq] at hds
          rw [List.map_cons, List.mem_cons, not_or, ← hds.1] at hbefore
          exact .inr ⟨⟨hbefore.1, hd⟩, before, after, hds.2, hbefore.2⟩

/-- A plan keeps drafts in their order. -/
theorem drafts_planFrom_sublist : (planFrom seen ds).drafts.Sublist ds := by
  induction ds generalizing seen with
  | nil => exact List.Sublist.slnil
  | cons d ds ih =>
    by_cases hd : d.key ∈ seen
    · rw [planFrom_cons_of_mem hd]
      exact ih.cons d
    · rw [planFrom_cons_of_notMem hd]
      exact ih.cons_cons d

/-- The drafts of a plan have different keys. -/
theorem nodup_keys_planFrom : ((planFrom seen ds).drafts.map Draft.key).Nodup := by
  induction ds generalizing seen with
  | nil => exact List.nodup_nil
  | cons d ds ih =>
    by_cases hd : d.key ∈ seen
    · rw [planFrom_cons_of_mem hd]
      exact ih
    · rw [planFrom_cons_of_notMem hd, List.map_cons, List.nodup_cons]
      refine ⟨?_, ih⟩
      intro hmem
      obtain ⟨e, he, heq⟩ := List.mem_map.mp hmem
      exact (mem_drafts_planFrom.mp he).1 (heq ▸ List.mem_cons_self ..)

/-- No draft is left out where all keys are different and none has been seen. -/
theorem skipped_planFrom_eq_zero_iff :
    (planFrom seen ds).skipped = 0 ↔
      (ds.map Draft.key).Nodup ∧ ∀ d ∈ ds, d.key ∉ seen := by
  induction ds generalizing seen with
  | nil => simp [planFrom]
  | cons d ds ih =>
    by_cases hd : d.key ∈ seen
    · rw [planFrom_cons_of_mem hd]
      constructor
      · intro h
        exact absurd h (Nat.succ_ne_zero _)
      · rintro ⟨-, hnew⟩
        exact absurd hd (hnew d (List.mem_cons_self ..))
    · rw [planFrom_cons_of_notMem hd, ih, List.map_cons, List.nodup_cons, List.forall_mem_cons]
      constructor
      · rintro ⟨hnodup, hnew⟩
        refine ⟨⟨?_, hnodup⟩, hd, fun e he hseen ↦ hnew e he (List.mem_cons_of_mem _ hseen)⟩
        intro hmem
        obtain ⟨e, he, heq⟩ := List.mem_map.mp hmem
        exact hnew e he (heq ▸ List.mem_cons_self ..)
      · rintro ⟨⟨hfirst, hnodup⟩, -, hnew⟩
        refine ⟨hnodup, fun e he hmem ↦ ?_⟩
        rcases List.mem_cons.mp hmem with heq | hmem
        · exact hfirst (heq ▸ List.mem_map_of_mem he)
        · exact hnew e he hmem

/-- Knowing of more keys leaves out the drafts with these keys and changes nothing else. -/
theorem drafts_planFrom_append (more : List AnnotationKey) :
    (planFrom (more ++ seen) ds).drafts =
      (planFrom seen ds).drafts.filter fun d ↦ !more.contains d.key := by
  induction ds generalizing seen with
  | nil => rfl
  | cons d ds ih =>
    have hswap (k : AnnotationKey) : k ∈ d.key :: (more ++ seen) ↔ k ∈ more ++ d.key :: seen := by
      rw [List.mem_cons, List.mem_append, List.mem_append, List.mem_cons, or_left_comm]
    by_cases hseen : d.key ∈ seen
    · rw [planFrom_cons_of_mem hseen, planFrom_cons_of_mem (List.mem_append_right _ hseen)]
      exact ih
    · rw [planFrom_cons_of_notMem hseen]
      by_cases hmore : d.key ∈ more
      · have habsorb (k : AnnotationKey) : k ∈ more ++ seen ↔ k ∈ more ++ d.key :: seen := by
          rw [← hswap, List.mem_cons, List.mem_append]
          constructor
          · exact .inr
          · rintro (rfl | h)
            · exact .inl hmore
            · exact h
        rw [planFrom_cons_of_mem (List.mem_append_left _ hmore),
          List.filter_cons_of_neg (by simpa using hmore), ← ih, planFrom_congr habsorb]
      · rw [planFrom_cons_of_notMem (by simp [hmore, hseen]),
          List.filter_cons_of_pos (by simpa using hmore), ← ih, planFrom_congr hswap]

/-- What is kept of drafts of which the first ones are taken away by their keys: the others. -/
theorem filter_keys_prefix {taken rest : List Draft}
    (h : ((taken ++ rest).map Draft.key).Nodup) :
    (taken ++ rest).filter (fun d ↦ !(taken.map Draft.key).contains d.key) = rest := by
  rw [List.map_append, List.nodup_append] at h
  have htaken : taken.filter (fun d ↦ !(taken.map Draft.key).contains d.key) = [] := by
    rw [List.filter_eq_nil_iff]
    intro d hd
    simpa using ⟨d, hd, rfl⟩
  have hrest : rest.filter (fun d ↦ !(taken.map Draft.key).contains d.key) = rest := by
    rw [List.filter_eq_self]
    intro d hd
    rw [Bool.not_eq_true', ← Bool.not_eq_true, List.contains_iff_mem]
    intro hmem
    exact h.2.2 _ hmem _ (List.mem_map_of_mem hd) rfl
  rw [List.filter_append, htaken, hrest, List.nil_append]

/-! ### Plans for candidates -/

/-- A line that has a number counts as standing at one, too. -/
theorem one_le_placeOf {hunks : List Hunk} {line : Int} (h : 1 ≤ line) (side : Side) :
    1 ≤ placeOf hunks line side := by
  cases side with
  | left => exact h
  | right =>
    show 1 ≤ anchorLine hunks line
    unfold anchorLine
    split
    · split <;> omega
    · exact h

/-- As many candidates are there as are planned or left out. -/
theorem length_plan {path body : String} {hunks : List Hunk} {existing : List Annotation}
    {side : Side} {cs : List Candidate} :
    (plan path body hunks existing side cs).drafts.length +
      (plan path body hunks existing side cs).skipped = cs.length := by
  rw [plan, length_planFrom, List.length_map]

/-- A plan for candidates has drafts of these candidates only. -/
theorem exists_of_mem_plan {path body : String} {hunks : List Hunk} {existing : List Annotation}
    {side : Side} {cs : List Candidate} (h : d ∈ (plan path body hunks existing side cs).drafts) :
    ∃ c ∈ cs, c.draft path body hunks side = d := by
  obtain ⟨-, before, after, hds, -⟩ := mem_drafts_planFrom.mp h
  exact List.mem_map.mp (hds ▸ List.mem_append_right _ (List.mem_cons_self ..))

/-- More annotations leave out the drafts with their keys. -/
theorem drafts_plan_append {path body : String} {hunks : List Hunk}
    {existing more : List Annotation} {side : Side} {cs : List Candidate} :
    (plan path body hunks (existing ++ more) side cs).drafts =
      (plan path body hunks existing side cs).drafts.filter fun d ↦
        !(more.filterMap (·.key? hunks path)).contains d.key := by
  have hswap (k : AnnotationKey) :
      k ∈ existing.filterMap (·.key? hunks path) ++ more.filterMap (·.key? hunks path) ↔
        k ∈ more.filterMap (·.key? hunks path) ++ existing.filterMap (·.key? hunks path) := by
    rw [List.mem_append, List.mem_append, or_comm]
  rw [plan, List.filterMap_append, planFrom_congr hswap, drafts_planFrom_append, plan]

/-- A candidate is planned where neither an annotation nor a candidate before it stands at its
place. -/
theorem draft_mem_plan_iff {path body : String} {hunks : List Hunk} {existing : List Annotation}
    {side : Side} {cs : List Candidate} {c : Candidate}
    (h : cs.Pairwise fun c e ↦ c.line < e.line) (hc : c ∈ cs) :
    c.draft path body hunks side ∈ (plan path body hunks existing side cs).drafts ↔
      ⟨path, placeOf hunks c.line side, side⟩ ∉ existing.filterMap (·.key? hunks path) ∧
        ∀ e ∈ cs, e.line < c.line → placeOf hunks e.line side ≠ placeOf hunks c.line side := by
  rw [plan, mem_drafts_planFrom]
  apply and_congr_right
  intro _
  constructor
  · rintro ⟨before, after, hds, hbefore⟩ e he hlt heq
    obtain ⟨cs₁, cs₂, rfl, rfl, hcs₂⟩ := List.map_eq_append_iff.mp hds
    obtain ⟨c', cs₂, rfl, hc', rfl⟩ := List.map_eq_cons_iff.mp hcs₂
    have hline : c'.line = c.line := congrArg Draft.line hc'
    obtain ⟨-, h₂, -⟩ := List.pairwise_append.mp h
    rcases List.mem_append.mp he with he | he
    · apply hbefore
      rw [List.map_map]
      refine List.mem_map.mpr ⟨e, he, ?_⟩
      show AnnotationKey.mk path (placeOf hunks e.line side) side = ⟨path, _, side⟩
      rw [heq]
      rfl
    · rcases List.mem_cons.mp he with rfl | he
      · omega
      · have := (List.pairwise_cons.mp h₂).1 e he
        omega
  · intro hfirst
    obtain ⟨cs₁, cs₂, rfl⟩ := List.append_of_mem hc
    refine ⟨cs₁.map (·.draft path body hunks side), cs₂.map (·.draft path body hunks side),
      List.map_append, ?_⟩
    rw [List.map_map, List.mem_map]
    rintro ⟨e, he, hkey⟩
    have hlt := (List.pairwise_append.mp h).2.2 e he c (List.mem_cons_self ..)
    exact hfirst e (List.mem_append_left _ he) hlt (congrArg AnnotationKey.line hkey)

/-- Where there is no annotation, no candidate is left out if all stand at different places. -/
theorem skipped_plan_nil_iff {path body : String} {hunks : List Hunk} {side : Side}
    {cs : List Candidate} :
    (plan path body hunks [] side cs).skipped = 0 ↔
      (cs.map fun c ↦ placeOf hunks c.line side).Nodup := by
  have hkeys : (cs.map (·.draft path body hunks side)).map Draft.key =
      (cs.map fun c ↦ placeOf hunks c.line side).map (AnnotationKey.mk path · side) := by
    rw [List.map_map, List.map_map]
    rfl
  have hne (m n : Int) : AnnotationKey.mk path m side ≠ ⟨path, n, side⟩ ↔ m ≠ n := by
    rw [Ne, AnnotationKey.mk.injEq]
    simp
  rw [plan, skipped_planFrom_eq_zero_iff, hkeys, List.Nodup, List.pairwise_map, List.Nodup]
  simp only [hne]
  exact and_iff_left fun d _ ↦ List.not_mem_nil

end RouteWatch
