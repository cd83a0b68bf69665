import RouteWatch.Proofs.Review.RunSteps

/-!
# Runs converge

What a run creates and what is still to be created after it make up what was to be created before
it, however the run was interrupted. So runs that are interrupted create together what one run
creates that is not, and nothing twice.
-/

namespace RouteWatch.Memory

variable {r : Reviewer} {m m' m'' : Memory} {added added' : List Annotation}
  {taken : String → List Draft} {path : String} {change : Token}

/-! ### What is still to be created -/

/-- The drafts that a run creates annotations for when no call fails. -/
def remaining (m : Memory) (r : Reviewer) : List Draft :=
  m.paths.flatMap (m.planned r (m.own r))

/-- What is planned for a file stands in it. -/
private theorem path_of_mem_planned {existing : List Annotation} {d : Draft}
    (h : d ∈ m.planned r existing path) : d.path = path := by
  unfold planned at h
  split at h
  · split at h
    · exact (Reviewer.key?_of_mem_planned h).1
    · exact absurd h List.not_mem_nil
  · exact absurd h List.not_mem_nil

/-- The keys in a file of the annotations that were created are those of the drafts that were
taken for it. -/
private theorem mem_keys_created {f : Reviewer.Findings} (hpath : path ∈ m.paths)
    (hplanned : m.planned r (m.own r) path = (f.report r path (m.own r)).planned)
    (hadded : added.map Annotation.posting = (m.paths.flatMap taken).map Draft.posting)
    (htaken : ∀ path ∈ m.paths, taken path <+: m.planned r (m.own r) path) (k : AnnotationKey) :
    k ∈ added.filterMap (·.key? f.diff.hunks path) ↔ k ∈ (taken path).map Draft.key := by
  have hkey (d : Draft) (hd : d ∈ taken path) :
      d.posting.key? f.diff.hunks path = some d.key := by
    have hmem := (htaken path hpath).subset hd
    rw [hplanned] at hmem
    exact (Reviewer.key?_of_mem_planned hmem).2
  rw [filterMap_key?_eq, hadded, List.filterMap_map, List.mem_filterMap, List.mem_map]
  constructor
  · rintro ⟨d, hd, hk⟩
    obtain ⟨q, hq, hd⟩ := List.mem_flatMap.mp hd
    have hdq := path_of_mem_planned ((htaken q hq).subset hd)
    obtain rfl : q = path := hdq.symm.trans (Posting.path_of_key? hk)
    exact ⟨d, hd, Option.some.inj ((hkey d hd).symm.trans hk)⟩
  · rintro ⟨d, hd, rfl⟩
    exact ⟨d, List.mem_flatMap.mpr ⟨path, hpath, hd⟩, hkey d hd⟩

/-- After a run that created the first ones of the annotations planned for a file, the others are
planned. -/
private theorem planned_eq_append (hauthor : m.author = r.config.author)
    (hcreates : m.Creates m' (m.paths.flatMap taken))
    (htaken : ∀ path ∈ m.paths, taken path <+: m.planned r (m.own r) path)
    (hpath : path ∈ m.paths) :
    m.planned r (m.own r) path = taken path ++ m'.planned r (m'.own r) path := by
  obtain ⟨added, hgrows, hadded, hauthors⟩ := hcreates
  have hown : m'.own r = m.own r ++ added := by
    rw [own, hgrows.annotations, List.filter_append, own]
    congr 1
    rw [List.filter_eq_self]
    intro a ha
    rw [hauthors a ha, hauthor, decide_eq_true_eq]
  have hbegins := htaken path hpath
  have hkeys := fun f hplanned ↦ mem_keys_created (f := f) hpath hplanned hadded htaken
  rw [hown, hgrows.planned]
  unfold planned at hbegins hkeys ⊢
  cases hfound : m.findings r path with
  | error e =>
    rw [hfound] at hbegins
    rw [List.prefix_nil.mp hbegins]
    rfl
  | ok f =>
    simp only [hfound] at hbegins hkeys ⊢
    by_cases hroute : isRouteFile r.config path = true
    · rw [if_pos hroute] at hbegins ⊢
      rw [if_pos hroute]
      exact Reviewer.planned_eq_append hbegins (hkeys f (if_pos hroute))
    · rw [if_neg hroute] at hbegins ⊢
      rw [if_neg hroute, List.prefix_nil.mp hbegins]
      rfl

/-- What is taken for all files and then what is left for all files is, in another order, what is
taken and left for one file after the other. -/
private theorem flatMap_append_perm (left : String → List Draft) (paths : List String) :
    (paths.flatMap fun path ↦ taken path ++ left path).Perm
      (paths.flatMap taken ++ paths.flatMap left) := by
  induction paths with
  | nil => exact .refl _
  | cons path paths ih =>
    simp only [List.flatMap_cons, List.append_assoc]
    apply List.Perm.append_left
    exact (ih.append_left _).trans (List.perm_append_comm_assoc _ _ _)

/-- A run takes the annotations that it creates away from those that are still to be created. -/
private theorem remaining_perm (hauthor : m.author = r.config.author)
    (hcreates : m.Creates m' (m.paths.flatMap taken))
    (htaken : ∀ path ∈ m.paths, taken path <+: m.planned r (m.own r) path) :
    (m.remaining r).Perm (m.paths.flatMap taken ++ m'.remaining r) := by
  obtain ⟨added, hgrows⟩ := hcreates.grows
  have hpaths : m'.paths = m.paths := by rw [paths, hgrows.files, paths]
  have hsplit (path : String) (hpath : path ∈ m.paths) :=
    planned_eq_append hauthor hcreates htaken hpath
  rw [remaining, List.flatMap_def, List.map_congr_left hsplit, ← List.flatMap_def, remaining,
    hpaths]
  exact flatMap_append_perm _ _

/-! ### Runs one after the other -/

/-- The state after a live run during which calls fail by rules. -/
def afterRun (m : Memory) (r : Reviewer) (change : Token) (rules : List FaultRule) : Memory :=
  ((r.run backend change false).run { m with rules }).state

/-- The state after live runs, each with its own rules. -/
def afterRuns (m : Memory) (r : Reviewer) (change : Token) (faults : List (List FaultRule)) :
    Memory :=
  faults.foldl (fun m rules ↦ m.afterRun r change rules) m

/-- What may have become of a state after some runs: annotations were added, and where no file
stops a run, they are those that need no more be created. -/
structure Follows (r : Reviewer) (change : Token) (m m' : Memory) (added : List Annotation) :
    Prop where
  grows : m.Grows { m' with rules := m.rules } added
  rest : m.Reviewable r change → ((m.remaining r).map Draft.posting).Perm
    (added.map Annotation.posting ++ (m'.remaining r).map Draft.posting)

theorem Follows.refl (r : Reviewer) (change : Token) (m : Memory) : Follows r change m m [] :=
  ⟨Grows.refl m, fun _ ↦ .refl _⟩

theorem Follows.paths_eq (h : Follows r change m m' added) : m'.paths = m.paths :=
  congrArg (List.map _) h.grows.files

theorem Follows.reviewable_iff (h : Follows r change m m' added) :
    m'.Reviewable r change ↔ m.Reviewable r change := by
  rw [Reviewable, Reviewable, h.paths_eq]
  exact and_congr_right fun _ ↦ forall₂_congr fun _ _ ↦ h.grows.passes_iff

theorem Follows.trans (h : Follows r change m m' added) (h' : Follows r change m' m'' added') :
    Follows r change m m'' (added ++ added') where
  grows := h.grows.trans
    ⟨h'.grows.files, h'.grows.diffs, h'.grows.author, rfl, h'.grows.annotations⟩
  rest := by
    intro hruns
    rw [List.map_append, List.append_assoc]
    exact (h.rest hruns).trans ((h'.rest (h.reviewable_iff.mpr hruns)).append_left _)

/-- A run follows a state however its calls fail. Where none fails and no file stops the run, it
creates all that is still to be created. -/
theorem follows_afterRun (hpaths : m.paths.Nodup) (hauthor : m.author = r.config.author)
    (change : Token) (rules : List FaultRule) :
    ∃ added, Follows r change m (m.afterRun r change rules) added ∧
      (rules = [] → m.Reviewable r change →
        added.map Annotation.posting = (m.remaining r).map Draft.posting) := by
  obtain ⟨⟨taken, hcreates, htaken⟩, -⟩ := ends_run (m := { m with rules }) r change hpaths
  have hperm (hruns : m.Reviewable r change) :=
    remaining_perm (m := { m with rules }) hauthor hcreates fun p hp ↦ (htaken hruns p hp).1
  obtain ⟨added, hgrows, hadded, -⟩ := hcreates
  refine ⟨added, ⟨⟨hgrows.files, hgrows.diffs, hgrows.author, rfl, hgrows.annotations⟩, ?_⟩, ?_⟩
  · intro hruns
    rw [hadded, ← List.map_append]
    exact (hperm hruns).map _
  · intro hrules hruns
    have hall (p : String) (hp : p ∈ m.paths) := (htaken hruns p hp).2 hrules
    rw [hadded, remaining, List.flatMap_def, List.flatMap_def]
    exact congrArg (·.flatten.map Draft.posting) (List.map_congr_left hall)

/-- Runs follow the state before them. -/
theorem follows_afterRuns (hpaths : m.paths.Nodup) (hauthor : m.author = r.config.author)
    (change : Token) (faults : List (List FaultRule)) :
    ∃ added, Follows r change m (m.afterRuns r change faults) added := by
  induction faults generalizing m with
  | nil => exact ⟨[], Follows.refl r change m⟩
  | cons rules faults ih =>
    obtain ⟨added, hfirst, -⟩ := follows_afterRun hpaths hauthor change rules
    have hpaths' : (m.afterRun r change rules).paths.Nodup := hfirst.paths_eq ▸ hpaths
    have hauthor' : (m.afterRun r change rules).author = r.config.author :=
      hfirst.grows.author.trans hauthor
    obtain ⟨added', hothers⟩ := ih hpaths' hauthor'
    exact ⟨added ++ added', hfirst.trans hothers⟩

/-- Where nothing but a failing call stops a run, one in which no call fails gets to the end,
whatever runs there were before. -/
theorem exists_report_afterRuns (hpaths : m.paths.Nodup) (hauthor : m.author = r.config.author)
    (hruns : m.Reviewable r change) (faults : List (List FaultRule)) :
    ∃ report, ((r.run backend change false).run
      { m.afterRuns r change faults with rules := [] }).answer = .ok report := by
  obtain ⟨added, hfollows⟩ := follows_afterRuns hpaths hauthor change faults
  have hpaths' : (m.afterRuns r change faults).paths.Nodup := by
    rw [hfollows.paths_eq]
    exact hpaths
  have hruns' : (m.afterRuns r change faults).Reviewable r change :=
    hfollows.reviewable_iff.mpr hruns
  exact ((ends_run (m := { m.afterRuns r change faults with rules := [] }) r change
    hpaths').2 rfl).mpr hruns'

/-- Runs that are interrupted at any calls, and then one in which no call fails and which gets to
the end, together create the annotations that one such run creates at once. After them no run
creates any. -/
theorem runs_converge (r : Reviewer) (change : Token) (m : Memory)
    (faults : List (List FaultRule)) (hpaths : (m.files.map (·.path)).Nodup)
    (hauthor : m.author = r.config.author)
    (hlast : ∃ report, ((r.run backend change false).run
      { m.afterRuns r change faults with rules := [] }).answer = .ok report) :
    ∃ created clean,
      ((m.afterRuns r change faults).afterRun r change []).annotations =
        m.annotations ++ created ∧
      (∃ report, ((r.run backend change false).run { m with rules := [] }).answer = .ok report) ∧
      (m.afterRun r change []).annotations = m.annotations ++ clean ∧
      (created.map Annotation.posting).Perm (clean.map Annotation.posting) ∧
      ∀ rules, (((m.afterRuns r change faults).afterRun r change []).afterRun r change
        rules).annotations = ((m.afterRuns r change faults).afterRun r change []).annotations := by
  obtain ⟨before, hbefore⟩ := follows_afterRuns hpaths hauthor change faults
  generalize m.afterRuns r change faults = n at hbefore hlast ⊢
  have hpathsn : n.paths.Nodup := hbefore.paths_eq ▸ hpaths
  have hauthorn : n.author = r.config.author := hbefore.grows.author.trans hauthor
  have hrunsn : n.Reviewable r change :=
    ((ends_run (m := { n with rules := [] }) r change hpathsn).2 rfl).mp hlast
  have hruns : m.Reviewable r change := hbefore.reviewable_iff.mp hrunsn
  obtain ⟨last, hfinal, hall⟩ := follows_afterRun hpathsn hauthorn change []
  obtain ⟨clean, hclean, hallclean⟩ := follows_afterRun hpaths hauthor change []
  replace hall := hall rfl hrunsn
  refine ⟨before ++ last, clean, (hbefore.trans hfinal).grows.annotations, ?_,
    hclean.grows.annotations, ?_, fun rules ↦ ?_⟩
  · exact ((ends_run (m := { m with rules := [] }) r change hpaths).2 rfl).mpr hruns
  · rw [hallclean rfl hruns, List.map_append, hall]
    exact (hbefore.rest hruns).symm
  · generalize n.afterRun r change [] = final at hfinal ⊢
    have hpathsf : final.paths.Nodup := hfinal.paths_eq ▸ hpathsn
    have hauthorf : final.author = r.config.author := hfinal.grows.author.trans hauthorn
    obtain ⟨more, hmore, -⟩ := follows_afterRun hpathsf hauthorf change rules
    -- Nothing is still to be created, so that nothing is.
    have hfirst := (hfinal.rest hrunsn).length_eq
    have hthen := (hmore.rest (hfinal.reviewable_iff.mpr hrunsn)).length_eq
    rw [← hall] at hfirst
    simp only [List.length_append, List.length_map] at hfirst hthen
    have hnone : more = [] := List.length_eq_zero_iff.mp (by omega)
    have hgrown := hmore.grows.annotations
    rwa [hnone, List.append_nil] at hgrown

/-- A change that adds a route to a file. -/
def routeAdded : Memory where
  files := [⟨"service/routes/x.js", some "const r = express.Router();\n",
    some "const r = express.Router();\nr.get();\n"⟩]
  diffs := []
  annotations := []
  author := "github-actions[bot]"
  rules := []
  calls := []

/-- The run reviews the file to the end. -/
theorem reviewable_routeAdded : routeAdded.Reviewable Reviewer.ofDefaults (.int 7) := by
  have hreport : Reviewer.emptyReport (.int 7) false = .ok ⟨7, false, 0, [], [], 0, false⟩ := rfl
  have hfound : (routeAdded.findings Reviewer.ofDefaults "service/routes/x.js").isOk = true := by
    decide +kernel
  refine ⟨⟨_, hreport⟩, fun path hpath _ e he ↦ ?_⟩
  obtain rfl := List.mem_singleton.mp hpath
  rw [he] at hfound
  cases hfound

/-- The first run may not create annotations, and the second one makes up for it. -/
theorem runs_converge_refused :
    (routeAdded.files.map (·.path)).Nodup ∧
      routeAdded.author = Reviewer.ofDefaults.config.author ∧
      (∃ report, ((Reviewer.ofDefaults.run backend (.int 7) false).run
        { routeAdded.afterRuns Reviewer.ofDefaults (.int 7)
            [[⟨.create, none, ⟨.api (some 403), "refused", none⟩⟩]] with
          rules := [] }).answer = .ok report) ∧
      (((routeAdded.afterRuns Reviewer.ofDefaults (.int 7)
          [[⟨.create, none, ⟨.api (some 403), "refused", none⟩⟩]]).afterRun Reviewer.ofDefaults
            (.int 7) []).annotations.map Annotation.posting).Perm
        ((routeAdded.afterRun Reviewer.ofDefaults (.int 7) []).annotations.map
          Annotation.posting) := by
  have hpaths : (routeAdded.files.map (·.path)).Nodup := List.pairwise_singleton _ _
  have hauthor : routeAdded.author = Reviewer.ofDefaults.config.author := rfl
  have hlast := exists_report_afterRuns hpaths hauthor reviewable_routeAdded
    [[⟨.create, none, ⟨.api (some 403), "refused", none⟩⟩]]
  obtain ⟨created, clean, hcreated, -, hclean, hperm, -⟩ :=
    runs_converge _ _ _ _ hpaths hauthor hlast
  refine ⟨hpaths, hauthor, hlast, ?_⟩
  rw [hcreated, hclean]
  exact hperm

end RouteWatch.Memory
