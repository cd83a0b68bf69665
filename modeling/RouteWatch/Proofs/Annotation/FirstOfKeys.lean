import RouteWatch.Proofs.Annotation.Plan

/-!
# The first candidates of their keys

A plan keeps, of candidates in order, those whose key no annotation holds and no candidate before
them has. So annotations count by the keys that they hold on the side of the plan, and where the
first of the drafts have been created, the plan goes on with the others.
-/

namespace RouteWatch

open RouteWatch.Diff (Hunk anchorLine)

/-- The key of a line on a side of a file: a line of the base revision stands for itself, one of
the head revision for its place in the base revision. -/
def lineKey (path : String) (hunks : List Hunk) (side : Side) (line : Int) : AnnotationKey :=
  match side with
  | .left => ⟨path, line, .left⟩
  | .right => ⟨path, anchorLine hunks line, .right⟩

/-- The annotation stands in the file of the key, and its line has the key on the annotation's own
side. An annotation without a line holds no key. -/
def Annotation.holds (hunks : List Hunk) (k : AnnotationKey) (a : Annotation) : Bool :=
  a.path = k.path && a.line.any fun line ↦ lineKey k.path hunks a.side line = k

/-- The candidates whose key no annotation holds and no candidate before them has, in order. -/
def firstOfKeys (path : String) (hunks : List Hunk) (existing : List Annotation) (side : Side)
    (cs : List Candidate) : List Candidate :=
  let key (c : Candidate) := lineKey path hunks side c.line
  (cs.zipIdx.filter fun (c, i) ↦
    (∀ a ∈ existing, ¬a.holds hunks (key c)) ∧ ∀ e ∈ cs.take i, key e ≠ key c).map Prod.fst

/-- The draft of a candidate: it stands at the candidate's own line, and its line of the base
revision is the one of the key. -/
def draftAt (path body : String) (hunks : List Hunk) (side : Side) (c : Candidate) : Draft where
  path := path
  line := c.line
  body := body
  side := side
  baseLine := some (lineKey path hunks side c.line).line

/-- Where a comment stands: its file, its line and its side. -/
structure Spot where
  path : String
  line : Option Int
  side : Side

/-- Where an annotation stands. -/
def Annotation.spot (a : Annotation) : Spot := ⟨a.path, a.line, a.side⟩

/-- Where a draft will stand. -/
def Draft.spot (d : Draft) : Spot := ⟨d.path, some d.line, d.side⟩

variable {path body : String} {hunks : List Hunk} {existing : List Annotation} {side : Side}
  {cs : List Candidate} {seen : List AnnotationKey} {ds : List Draft}

/-! ### Keys -/

theorem lineKey_eq (path : String) (hunks : List Hunk) (side : Side) (line : Int) :
    lineKey path hunks side line = ⟨path, placeOf hunks line side, side⟩ := by
  cases side <;> rfl

theorem draft_eq_draftAt (c : Candidate) :
    c.draft path body hunks side = draftAt path body hunks side c := by
  rw [draftAt, lineKey_eq]
  rfl

/-- A draft has the key of its candidate's line. -/
theorem key_draft (c : Candidate) :
    (c.draft path body hunks side).key = lineKey path hunks side c.line := by
  rw [lineKey_eq]
  rfl

/-- The keys that a plan has seen are those that annotations hold. -/
theorem mem_keys_iff {k : AnnotationKey} (hk : k.path = path) :
    k ∈ existing.filterMap (·.key? hunks path) ↔ ∃ a ∈ existing, a.holds hunks k = true := by
  subst hk
  rw [List.mem_filterMap]
  refine exists_congr fun a ↦ and_congr_right fun _ ↦ ?_
  unfold Annotation.key? Annotation.holds
  rw [Bool.and_eq_true, decide_eq_true_eq, Option.any_eq_true]
  split
  · next hpath =>
    rw [Option.map_eq_some_iff, and_iff_right hpath]
    simp only [lineKey_eq, decide_eq_true_eq]
  · next hpath => exact iff_of_false nofun fun h ↦ hpath h.1

/-! ### First drafts -/

/-- A plan keeps the drafts whose key has not been seen and is no key of a draft before them. The
induction is on the drafts; what the first one adds to the keys seen is what it adds to the drafts
before the others. -/
private theorem drafts_planFrom_eq :
    (planFrom seen ds).drafts = (ds.zipIdx.filter fun (d, i) ↦
      d.key ∉ seen ∧ ∀ e ∈ ds.take i, e.key ≠ d.key).map Prod.fst := by
  induction ds generalizing seen with
  | nil => rfl
  | cons d ds ih =>
    rw [List.zipIdx_cons', List.filter_cons, List.filter_map]
    by_cases hd : d.key ∈ seen
    · rw [planFrom_cons_of_mem hd, ih, if_neg (by simpa using hd), List.map_map]
      refine congrArg (List.map Prod.fst)
        (List.filter_congr fun ⟨e, i⟩ _ ↦ decide_eq_decide.mpr (and_congr_right fun he ↦ ?_))
      have hne : d.key ≠ e.key := fun heq ↦ he (heq ▸ hd)
      show _ ↔ ∀ f ∈ d :: ds.take i, f.key ≠ e.key
      rw [List.forall_mem_cons, and_iff_right hne]
    · rw [planFrom_cons_of_notMem hd, ih, if_pos (by simpa using hd), List.map_cons, List.map_map]
      refine congrArg (d :: List.map Prod.fst ·)
        (List.filter_congr fun ⟨e, i⟩ _ ↦ decide_eq_decide.mpr ?_)
      show _ ↔ e.key ∉ seen ∧ ∀ f ∈ d :: ds.take i, f.key ≠ e.key
      rw [List.forall_mem_cons, List.mem_cons, not_or, ne_comm]
      constructor
      · rintro ⟨⟨hne, he⟩, hbefore⟩
        exact ⟨he, hne, hbefore⟩
      · rintro ⟨he, hne, hbefore⟩
        exact ⟨⟨hne, he⟩, hbefore⟩

/-- A plan keeps the drafts of the candidates that are the first of their keys. -/
theorem drafts_plan_eq :
    (plan path body hunks existing side cs).drafts =
      (firstOfKeys path hunks existing side cs).map (draftAt path body hunks side) := by
  have hdraft : Prod.fst ∘ Prod.map (·.draft path body hunks side) id =
      draftAt path body hunks side ∘ (Prod.fst : Candidate × Nat → Candidate) :=
    funext fun _ ↦ draft_eq_draftAt _
  rw [plan, drafts_planFrom_eq, List.zipIdx_map, List.filter_map, List.map_map, hdraft,
    firstOfKeys, List.map_map]
  refine congrArg _ (List.filter_congr ?_)
  rintro ⟨c, i⟩ -
  refine decide_eq_decide.mpr ?_
  simp only [id, key_draft, ← List.map_take, List.forall_mem_map]
  rw [mem_keys_iff (by rw [lineKey_eq]), not_exists]
  simp only [not_and]

/-- A plan is known by its drafts. -/
private theorem plan_eq_of_drafts {p : Plan}
    (hdrafts : (plan path body hunks existing side cs).drafts = p.drafts)
    (hlength : p.drafts.length + p.skipped = cs.length) :
    plan path body hunks existing side cs = p := by
  have hskipped := @length_plan path body hunks existing side cs
  rw [← hlength, hdrafts, Nat.add_left_cancel_iff] at hskipped
  cases p
  rw [Plan.mk.injEq]
  exact ⟨hdrafts, hskipped⟩

/-- An annotation holds the key of a line if it stands in the file and on the side. -/
private theorem of_holds {a : Annotation} {line : Int}
    (h : a.holds hunks (lineKey path hunks side line) = true) :
    a.path = path ∧ a.line ≠ none ∧ a.side = side := by
  unfold Annotation.holds at h
  rw [Bool.and_eq_true, decide_eq_true_eq, Option.any_eq_true] at h
  obtain ⟨hpath, n, hn, hkey⟩ := h
  simp only [lineKey_eq, decide_eq_true_eq, AnnotationKey.mk.injEq] at hpath hkey
  exact ⟨hpath, by simp [hn], hkey.2.2⟩

/-- The candidates that are kept depend on the annotations in the file that have a line and are on
the side. -/
private theorem firstOfKeys_congr {others : List Annotation}
    (h : ∀ a, a.path = path → a.line ≠ none → a.side = side → (a ∈ others ↔ a ∈ existing)) :
    firstOfKeys path hunks others side cs = firstOfKeys path hunks existing side cs := by
  refine congrArg _ (List.filter_congr fun ⟨c, i⟩ _ ↦ decide_eq_decide.mpr ?_)
  refine and_congr_left fun _ ↦ forall_congr' fun a ↦ ?_
  constructor
  · intro hfree ha hholds
    obtain ⟨hpath, hline, hside⟩ := of_holds hholds
    exact hfree ((h a hpath hline hside).mpr ha) hholds
  · intro hfree ha hholds
    obtain ⟨hpath, hline, hside⟩ := of_holds hholds
    exact hfree ((h a hpath hline hside).mp ha) hholds

/-- Annotations that stand where drafts of a plan do have the keys of these drafts. -/
private theorem filterMap_key?_created {xs : List Draft} {created : List Annotation}
    (hxs : ∀ d ∈ xs, d ∈ (plan path body hunks existing side cs).drafts)
    (h : created.map Annotation.spot = xs.map Draft.spot) :
    created.filterMap (·.key? hunks path) = xs.map Draft.key := by
  induction xs generalizing created with
  | nil =>
    obtain rfl := List.map_eq_nil_iff.mp h
    rfl
  | cons d xs ih =>
    obtain ⟨a, rest, rfl, ha, hrest⟩ := List.map_eq_cons_iff.mp h
    rw [List.forall_mem_cons] at hxs
    obtain ⟨c, -, rfl⟩ := exists_of_mem_plan hxs.1
    obtain ⟨hpath, hline, hside⟩ := Spot.mk.inj ha
    have hkey : a.key? hunks path = some (c.draft path body hunks side).key := by
      unfold Annotation.key?
      rw [hpath, hline, hside]
      exact if_pos rfl
    rw [List.filterMap_cons_some hkey, ih hxs.2 hrest, List.map_cons]

/-! ### Plans -/

/-- A plan has the drafts of the candidates that are the first of their keys, and leaves out the
others. Annotations bear on it only where they stand in the file, have a line and are on the side
of the plan; neither their order nor their repetition does. Where annotations that stand as the
first drafts do are added, the plan consists of the other drafts. -/
theorem plan_keeps_first (path body : String) (hunks : List Hunk) (existing : List Annotation)
    (side : Side) (cs : List Candidate) :
    (plan path body hunks existing side cs).drafts =
        (firstOfKeys path hunks existing side cs).map (draftAt path body hunks side) ∧
      (firstOfKeys path hunks existing side cs).length +
        (plan path body hunks existing side cs).skipped = cs.length ∧
      (∀ others : List Annotation,
        (∀ a, a.path = path → a.line ≠ none → a.side = side → (a ∈ others ↔ a ∈ existing)) →
          plan path body hunks others side cs = plan path body hunks existing side cs) ∧
      ∀ (xs ys : List Draft) (created : List Annotation),
        (plan path body hunks existing side cs).drafts = xs ++ ys →
        created.map Annotation.spot = xs.map Draft.spot →
          plan path body hunks (existing ++ created) side cs =
            ⟨ys, (plan path body hunks existing side cs).skipped + xs.length⟩ := by
  refine ⟨drafts_plan_eq, ?_, ?_, ?_⟩
  · have hlength := @length_plan path body hunks existing side cs
    rwa [drafts_plan_eq, List.length_map] at hlength
  · intro others h
    refine plan_eq_of_drafts ?_ length_plan
    rw [drafts_plan_eq, drafts_plan_eq, firstOfKeys_congr h]
  · intro xs ys created hsplit hcreated
    have hkeys := filterMap_key?_created
      (fun d hd ↦ hsplit ▸ List.mem_append_left ys hd) hcreated
    have hnodup : ((xs ++ ys).map Draft.key).Nodup := hsplit ▸ nodup_keys_planFrom
    have hlength := @length_plan path body hunks existing side cs
    rw [hsplit, List.length_append] at hlength
    refine plan_eq_of_drafts ?_ (by simp only; omega)
    rw [drafts_plan_append, hsplit, hkeys, filter_keys_prefix hnodup]

/-- A candidate at a line. -/
def candidateAt (n : Int) : Candidate := ⟨⟨n, n, "", .singleLine⟩, n⟩

/-- An annotation in the file at a line of the head revision. -/
def commentAt (n : Int) : Annotation := ⟨"r.js", some n, "", none, .right, none⟩

/-- The hunks stand in no order, and the first line of the file would be mapped to line 0. The
second candidate has the key of the first, the fourth that of an annotation. A comment on line 3 of
the base revision is no obstacle to the third. -/
theorem plan_keeps_first_unsorted :
    let hunks : List Hunk := [⟨0, 1, 0, 2⟩, ⟨9, 4, 1, 1⟩, ⟨2, 3, 1, 1⟩]
    let cs := [1, 2, 3, 4].map candidateAt
    let existing := [{ commentAt 2 with side := .left }, commentAt 4]
    (plan "r.js" "b" hunks existing .right cs).drafts =
        [⟨"r.js", 1, "b", .right, some 1⟩] ++ [⟨"r.js", 3, "b", .right, some 2⟩] ∧
      plan "r.js" "b" hunks [commentAt 4, commentAt 4] .right cs =
        plan "r.js" "b" hunks existing .right cs ∧
      plan "r.js" "b" hunks (existing ++ [commentAt 1]) .right cs =
        ⟨[⟨"r.js", 3, "b", .right, some 2⟩], 3⟩ := by
  intro hunks cs existing
  obtain ⟨-, -, hothers, hresume⟩ := plan_keeps_first "r.js" "b" hunks existing .right cs
  refine ⟨rfl, hothers _ fun a _ _ hside ↦ ?_,
    hresume [⟨"r.js", 1, "b", .right, some 1⟩] _ [commentAt 1] rfl rfl⟩
  have hne : a ≠ { commentAt 2 with side := .left } := by
    rintro rfl
    cases hside
  simp [existing, hne]

end RouteWatch
