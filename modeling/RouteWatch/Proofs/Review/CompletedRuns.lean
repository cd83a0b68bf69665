import RouteWatch.Proofs.Review.Convergence
import RouteWatch.Proofs.Review.Log
import RouteWatch.Proofs.Review.MemoryReplies

/-!
# Runs that were completed

A run that ends with a report has visited every route file that was listed, in order. What the
report says of the files, of the annotations that were created and of the calls for attention is
what the run has done, whatever its backend answered.
-/

namespace RouteWatch

variable {σ : Type} {r : Reviewer} {change : Token} {revisions : Revisions}
  {existing : List Annotation} {delay : Seconds} {path : String} {report last : RunReport}

/-! ### Annotations in one file -/

/-- The calls, with a pause before each. -/
def pacedAfter (delay : Seconds) (replies : List Reply) : List Step :=
  replies.flatMap fun reply ↦
    if delay.isPositive then [.slept delay, .heard reply] else [.heard reply]

/-- The calls, with a pause between each two. -/
def paced (delay : Seconds) : List Reply → List Step
  | [] => []
  | reply :: replies => .heard reply :: pacedAfter delay replies

/-- The calls that create the annotations of drafts, answered with these identifiers. -/
def createReplies (change : Token) (ds : List Draft) (ids : List Token) : List Reply :=
  List.zipWith (fun d id ↦ ⟨.create change d, .ok id⟩) ds ids

private theorem Creates.steps_eq_pacedAfter {ds : List Draft} {steps : List Step} {ids : List Token}
    (h : Creates change delay (some path) ds steps (.ok ids)) (hds : ∀ d ∈ ds, d.path = path) :
    ids.length = ds.length ∧ steps = pacedAfter delay (createReplies change ds ids) := by
  induction ds generalizing steps ids with
  | nil =>
    cases h
    exact ⟨rfl, rfl⟩
  | cons d ds ih =>
    obtain ⟨rfl, hds⟩ := List.forall_mem_cons.mp hds
    generalize hx : Except.ok ids = x at h
    cases h with
    | stop => cases hx
    | @cons _ _ _ id steps x rest =>
      cases x with
      | error e => cases hx
      | ok rest_ids =>
        obtain rfl := Except.ok.inj hx
        obtain ⟨hlength, rfl⟩ := ih rest hds
        refine ⟨congrArg Nat.succ hlength, ?_⟩
        simp only [pauseBefore, decide_true, Bool.true_and, createReplies, List.zipWith_cons_cons,
          pacedAfter, List.flatMap_cons]
        split <;> rfl

/-- The annotations for one file are created with a pause between each two. -/
theorem Creates.steps_eq_paced {ds : List Draft} {steps : List Step} {ids : List Token}
    (h : Creates change delay none ds steps (.ok ids)) (hds : ∀ d ∈ ds, d.path = path) :
    ids.length = ds.length ∧ steps = paced delay (createReplies change ds ids) := by
  generalize hx : Except.ok ids = x at h
  cases h with
  | nil =>
    obtain rfl := Except.ok.inj hx
    exact ⟨rfl, rfl⟩
  | stop => cases hx
  | @cons _ d ds id steps x rest =>
    obtain ⟨rfl, hds⟩ := List.forall_mem_cons.mp hds
    cases x with
    | error e => cases hx
    | ok rest_ids =>
      obtain rfl := Except.ok.inj hx
      obtain ⟨hlength, rfl⟩ := rest.steps_eq_pacedAfter hds
      exact ⟨congrArg Nat.succ hlength, rfl⟩

/-! ### Visits -/

/-- A visit of a file: what was read, and what stands in the report for it. -/
structure Visit where
  path : String
  reading : Reading
  outcome : FileReport ⊕ FileError

namespace Visit

/-- The report on the file, where it could be reviewed. -/
def file? (v : Visit) : Option FileReport := v.outcome.getLeft?

/-- The error of the file, where it could not be reviewed. -/
def error? (v : Visit) : Option FileError := v.outcome.getRight?

/-- The calls that created annotations for the file. -/
def creations (change : Token) (v : Visit) : List Reply :=
  match v.outcome with
  | .inl file => createReplies change file.planned file.createdIds
  | .inr _ => []

/-- The steps of the visit. -/
def steps (r : Reviewer) (change : Token) (revisions : Revisions) (v : Visit) : List Step :=
  v.reading.steps v.path revisions ++ paced r.delay (v.creations change)

/-- The report says of the file what its review gives: an error that the run survives, or the
findings with one identifier for each annotation that is planned, and with none in a dry run. -/
structure Fits (r : Reviewer) (existing : List Annotation) (dryRun : Bool) (v : Visit) : Prop where
  route : isRouteFile r.config v.path = true
  reading : v.reading.Fits r
  outcome : match v.outcome with
    | .inl file => ∃ found, v.reading.review r v.path existing = .ok found ∧
        file = { found with createdIds := file.createdIds } ∧
        file.createdIds.length = if dryRun then 0 else file.planned.length
    | .inr error => r.config.failFast = false ∧ ∃ t,
        v.reading.review r v.path existing = .error (.trouble t) ∧ t.concernsFile = true ∧
        error = ⟨v.path, t.kind, t.message⟩

end Visit

/-- The number of annotations that were created for files. -/
def createdFor : List FileReport → Nat
  | [] => 0
  | file :: files => file.createdIds.length + createdFor files

theorem createdFor_append (files more : List FileReport) :
    createdFor (files ++ more) = createdFor files + createdFor more := by
  induction files with
  | nil => exact (Nat.zero_add _).symm
  | cons file files ih => rw [List.cons_append, createdFor, createdFor, ih, Nat.add_assoc]

/-- The report after some more visits. -/
def RunReport.after (report : RunReport) (visits : List Visit) : RunReport :=
  { report with
    considered := report.considered + visits.length
    files := report.files ++ visits.filterMap (·.file?)
    errors := report.errors ++ visits.filterMap (·.error?)
    created := report.created + createdFor (visits.filterMap (·.file?)) }

theorem RunReport.after_nil (report : RunReport) : report.after [] = report := by
  simp [after, createdFor]

theorem RunReport.after_after (report : RunReport) (visits more : List Visit) :
    (report.after visits).after more = report.after (visits ++ more) := by
  simp [after, createdFor_append, Nat.add_assoc]

/-- A visit after which a run goes on: the file is none to review, or is in the report. -/
theorem Reviewer.Visits.exists_visit {steps : List Step}
    (h : r.Visits change revisions existing report path steps (.ok last)) :
    isRouteFile r.config path = false ∧ steps = [] ∧ last = report ∨
      ∃ v : Visit, v.path = path ∧ v.Fits r existing report.dryRun ∧
        steps = v.steps r change revisions ∧ last = report.after [v] := by
  generalize hx : Except.ok last = x at h
  cases h with
  | skipped hroute => exact .inl ⟨hroute, rfl, Except.ok.inj hx⟩
  | stopped => cases hx
  | @left reading t hroute hfits hreview hfile hfast =>
    obtain rfl := Except.ok.inj hx
    refine .inr ⟨⟨path, reading, .inr ⟨path, t.kind, t.message⟩⟩, rfl,
      ⟨hroute, hfits, hfast, t, hreview, hfile, rfl⟩, (List.append_nil _).symm, ?_⟩
    simp [RunReport.leave, RunReport.consider, RunReport.after, Visit.file?, Visit.error?,
      createdFor, List.filterMap_cons]
  | @reviewed reading file steps x hroute hfits hreview hannotates =>
    cases x with
    | error e => cases hx
    | ok ids =>
      obtain rfl := Except.ok.inj hx
      have hcreated : ids.length = (if report.dryRun then 0 else file.planned.length) ∧
          steps = paced r.delay (createReplies change file.planned ids) := by
        unfold Reviewer.Annotates at hannotates
        split at hannotates
        next hdry =>
          obtain ⟨rfl, hids⟩ := hannotates
          obtain rfl := Except.ok.inj hids
          rw [if_pos hdry, createReplies, List.zipWith_nil_right]
          exact ⟨rfl, rfl⟩
        next hlive =>
          rw [if_neg hlive]
          exact hannotates.steps_eq_paced fun d hd ↦ Reading.path_of_review hreview hd
      obtain ⟨hlength, rfl⟩ := hcreated
      refine .inr ⟨⟨path, reading, .inl { file with createdIds := ids }⟩, rfl,
        ⟨hroute, hfits, file, hreview, rfl, hlength⟩, rfl, ?_⟩
      simp [RunReport.add, RunReport.consider, RunReport.after, Visit.file?, Visit.error?,
        createdFor]

/-- A run that gets to the end of its list has visited the route files in it. -/
theorem Reviewer.VisitsAll.exists_visits {files : List Token} {steps : List Step}
    (h : r.VisitsAll change revisions existing report files steps (.ok last)) :
    ∃ (paths : List String) (visits : List Visit), files = paths.map .text ∧
      visits.map (·.path) = paths.filter (isRouteFile r.config) ∧
      (∀ v ∈ visits, v.Fits r existing report.dryRun) ∧
      steps = visits.flatMap (·.steps r change revisions) ∧ last = report.after visits := by
  generalize hx : Except.ok last = x at h
  induction h with
  | nil report =>
    exact ⟨[], [], rfl, rfl, fun _ h ↦ absurd h List.not_mem_nil, rfl,
      (Except.ok.inj hx).trans report.after_nil.symm⟩
  | stopped => cases hx
  | misfit => cases hx
  | @cons report next path files steps rest x hfirst hrest ih =>
    obtain ⟨paths, visits, rfl, hpaths, hfits, rfl, hlast⟩ := ih hx
    rcases hfirst.exists_visit with ⟨hroute, rfl, rfl⟩ | ⟨v, rfl, hv, rfl, rfl⟩
    · refine ⟨path :: paths, visits, rfl, ?_, hfits, rfl, hlast⟩
      rw [hpaths, List.filter_cons_of_neg]
      rw [hroute]
      exact Bool.false_ne_true
    · refine ⟨v.path :: paths, v :: visits, rfl, ?_, List.forall_mem_cons.mpr ⟨hv, hfits⟩, rfl, ?_⟩
      · rw [List.filter_cons_of_pos hv.route, List.map_cons, hpaths]
      · rw [hlast, RunReport.after_after]
        rfl

/-! ### Counts -/

/-- The annotations that were created in some steps. -/
def creationsIn (steps : List Step) : Nat := (steps.map Step.event).countP Event.isCreation

theorem creationsIn_append (steps rest : List Step) :
    creationsIn (steps ++ rest) = creationsIn steps + creationsIn rest := by
  rw [creationsIn, List.map_append, List.countP_append]
  rfl

private theorem Reading.creationsIn_steps (path : String) (revisions : Revisions)
    (reading : Reading) : creationsIn (reading.steps path revisions) = 0 := by
  rw [creationsIn, List.countP_eq_zero]
  intro e he
  obtain ⟨step, hstep, rfl⟩ := List.mem_map.mp he
  rw [reading.isCreation_of_mem hstep]
  exact Bool.false_ne_true

private theorem creationsIn_cons {reply : Reply} (steps : List Step)
    (h : Event.isCreation (.called reply.call) = true) :
    creationsIn (.heard reply :: steps) = creationsIn steps + 1 := by
  rw [creationsIn, List.map_cons, List.countP_cons, Step.event, if_pos h]
  rfl

private theorem creationsIn_pacedAfter {replies : List Reply}
    (h : ∀ reply ∈ replies, Event.isCreation (.called reply.call) = true) :
    creationsIn (pacedAfter delay replies) = replies.length := by
  induction replies with
  | nil => rfl
  | cons reply replies ih =>
    obtain ⟨hreply, hreplies⟩ := List.forall_mem_cons.mp h
    have hone : creationsIn
        (if delay.isPositive then [.slept delay, .heard reply] else [.heard reply]) = 1 := by
      split <;> exact creationsIn_cons [] hreply
    rw [pacedAfter, List.flatMap_cons, creationsIn_append, hone, List.length_cons, Nat.add_comm]
    exact congrArg Nat.succ (ih hreplies)

private theorem creationsIn_paced {replies : List Reply}
    (h : ∀ reply ∈ replies, Event.isCreation (.called reply.call) = true) :
    creationsIn (paced delay replies) = replies.length := by
  cases replies with
  | nil => rfl
  | cons reply replies =>
    obtain ⟨hreply, hreplies⟩ := List.forall_mem_cons.mp h
    rw [paced, creationsIn_cons _ hreply, creationsIn_pacedAfter hreplies, List.length_cons]

/-- A visit has created as many annotations as the report on its file has identifiers. -/
theorem Visit.creationsIn_steps {v : Visit} {dryRun : Bool} (h : v.Fits r existing dryRun) :
    creationsIn (v.steps r change revisions) = createdFor v.file?.toList := by
  rw [Visit.steps, creationsIn_append, Reading.creationsIn_steps, Nat.zero_add]
  obtain ⟨path, reading, file | error⟩ := v
  · obtain ⟨-, -, found, -, -, hlength⟩ := h
    have hcreations (ds : List Draft) (ids : List Token) :
        ∀ reply ∈ createReplies change ds ids, Event.isCreation (.called reply.call) = true := by
      intro reply hreply
      obtain ⟨k, hk, rfl⟩ := List.getElem_of_mem hreply
      have hcall : (createReplies change ds ids)[k] = ⟨.create change _, .ok _⟩ :=
        List.getElem_zipWith ..
      rw [hcall]
      rfl
    rw [Visit.creations, creationsIn_paced (hcreations _ _), createReplies, List.length_zipWith]
    show min file.planned.length file.createdIds.length = file.createdIds.length + 0
    split at hlength <;> omega
  · rfl

theorem length_visits (visits : List Visit) :
    visits.length = (visits.filterMap (·.file?)).length + (visits.filterMap (·.error?)).length := by
  induction visits with
  | nil => rfl
  | cons v visits ih =>
    obtain ⟨path, reading, file | error⟩ := v <;>
      simp [List.filterMap_cons, Visit.file?, Visit.error?, ih] <;> omega

/-- Visits have created as many annotations as the reports on their files have identifiers. -/
theorem creationsIn_visits {visits : List Visit} {dryRun : Bool}
    (h : ∀ v ∈ visits, v.Fits r existing dryRun) :
    creationsIn (visits.flatMap (·.steps r change revisions)) =
      createdFor (visits.filterMap (·.file?)) := by
  induction visits with
  | nil => rfl
  | cons v visits ih =>
    obtain ⟨hv, hvisits⟩ := List.forall_mem_cons.mp h
    rw [List.flatMap_cons, creationsIn_append, ih hvisits, Visit.creationsIn_steps hv]
    cases hfile : v.file? with
    | none => simp [createdFor, hfile]
    | some file => simp [createdFor, hfile]

/-! ### Completed runs -/

/-- The calls for attention at the end of a run. -/
def Reviewer.attention (r : Reviewer) (change : Token) : List Step :=
  [.heard ⟨.requestChanges change r.comment, .ok ()⟩,
    .heard ⟨.ensureLabel change r.config.label, .ok ()⟩]

/-- A report says what a run has done that has these steps. -/
structure RunReport.Accounts (report : RunReport) (r : Reviewer) (change : Token) (dryRun : Bool)
    (steps : List Step) (revisions : Revisions) (paths : List String)
    (annotations : List Annotation) (visits : List Visit) : Prop where
  /-- The run asks for the change, visits files, and calls for attention. -/
  steps_eq : steps = opening change revisions (paths.map .text) annotations ++
    (visits.flatMap (·.steps r change revisions) ++
      if report.escalated then r.attention change else [])
  /-- The route files that were listed are visited in order. -/
  visited : visits.map (·.path) = paths.filter (isRouteFile r.config)
  fits : ∀ v ∈ visits, v.Fits r (r.own annotations) dryRun
  files : report.files = visits.filterMap (·.file?)
  errors : report.errors = visits.filterMap (·.error?)
  considered : report.considered = report.files.length + report.errors.length
  created : report.created = creationsIn steps
  createdIds : report.created = createdFor report.files
  escalated : report.escalated = true ↔ dryRun = false ∧ creationsIn steps ≠ 0

/-- In a dry run nothing is created. -/
private theorem createdFor_dryRun {visits : List Visit}
    (h : ∀ v ∈ visits, v.Fits r existing true) : createdFor (visits.filterMap (·.file?)) = 0 := by
  induction visits with
  | nil => rfl
  | cons v visits ih =>
    obtain ⟨hv, hvisits⟩ := List.forall_mem_cons.mp h
    obtain ⟨path, reading, file | error⟩ := v
    · obtain ⟨-, -, found, -, -, hlength⟩ := hv
      simpa [createdFor, List.filterMap_cons, Visit.file?, hlength] using ih hvisits
    · simpa [createdFor, List.filterMap_cons, Visit.file?] using ih hvisits

/-- A log that ends with a report is accounted for by the report. -/
theorem Reviewer.Logs.exists_accounts {dryRun : Bool} {steps : List Step}
    (h : r.Logs change dryRun steps (.ok report)) :
    ∃ revisions paths annotations visits,
      report.Accounts r change dryRun steps revisions paths annotations visits := by
  generalize hx : Except.ok report = x at h
  cases h with
  | @reviewed first last revisions files annotations steps rest x hfirst hvisits hescalates =>
    obtain ⟨n, rfl⟩ := eq_of_emptyReport hfirst
    obtain ⟨paths, visits, rfl, hpaths, hfits, rfl, rfl⟩ := hvisits.exists_visits
    have hcreated : creationsIn (visits.flatMap (·.steps r change revisions)) =
        createdFor (visits.filterMap (·.file?)) := creationsIn_visits hfits
    have hdry (hdryRun : dryRun = true) : createdFor (visits.filterMap (·.file?)) = 0 :=
      createdFor_dryRun (hdryRun ▸ hfits)
    have hcounted (attention : List Step) (h : creationsIn attention = 0) :
        creationsIn (opening change revisions (paths.map .text) annotations ++
          (visits.flatMap (·.steps r change revisions) ++ attention)) =
          createdFor (visits.filterMap (·.file?)) := by
      rw [creationsIn_append, creationsIn_append, hcreated, h]
      exact Nat.zero_add _
    have hconsidered := (Nat.zero_add _).trans (length_visits visits)
    refine ⟨revisions, paths, annotations, visits, ?_⟩
    cases hescalates with
    | unneeded hnone =>
      obtain rfl := Except.ok.inj hx
      have hcount := hcounted [] rfl
      refine ⟨rfl, hpaths, hfits, rfl, rfl, hconsidered, (Nat.zero_add _).trans hcount.symm,
        Nat.zero_add _, iff_of_false Bool.false_ne_true fun hcreates ↦ hcreates.2 ?_⟩
      exact hcount.trans ((Nat.zero_add _).symm.trans hnone)
    | done hsome =>
      obtain rfl := Except.ok.inj hx
      have hcount := hcounted (r.attention change) rfl
      have hpos : createdFor (visits.filterMap (·.file?)) ≠ 0 := fun hnone ↦
        hsome ((Nat.zero_add _).trans hnone)
      refine ⟨rfl, hpaths, hfits, rfl, rfl, hconsidered, (Nat.zero_add _).trans hcount.symm,
        Nat.zero_add _, iff_of_true rfl ⟨?_, fun hnone ↦ hpos (hcount.symm.trans hnone)⟩⟩
      exact Bool.eq_false_iff.mpr fun hdryRun ↦ hpos (hdry hdryRun)
    | refused => cases hx
    | unlabelled => cases hx
  | _ => cases hx

/-- The report of a run that was completed says what the run has done, whatever its backend
answered. -/
theorem run_accounts (r : Reviewer) (b : Backend σ) (change : Token) (dryRun : Bool) (s : σ)
    (report : RunReport)
    (h : ((r.run b.observed change dryRun).run s).answer = .ok report) :
    ∃ steps revisions paths annotations visits,
      b.Plays s steps ((r.run b.observed change dryRun).run s).state ∧
      ((r.run b.observed change dryRun).run s).trace.filter Event.isStep =
        steps.map Step.event ∧
      report.Accounts r change dryRun steps revisions paths annotations visits := by
  obtain ⟨d, hd, hplay⟩ := r.exists_dialogue change dryRun
  rw [hplay] at h ⊢
  have hlogs := hd.steps b s
  rw [h] at hlogs
  obtain ⟨revisions, paths, annotations, visits, haccounts⟩ := hlogs.exists_accounts
  obtain ⟨hplays, hseen⟩ := d.plays_steps b s
  exact ⟨_, revisions, paths, annotations, visits, hplays, hseen, haccounts⟩

/-- A run over a change that adds a route is completed and accounted for. -/
theorem run_accounts_routeAdded :
    ∃ report, ((Reviewer.ofDefaults.run Memory.backend.observed (.int 7) false).run
        Memory.routeAdded).answer = .ok report ∧
      ∃ steps revisions paths annotations visits,
        report.Accounts Reviewer.ofDefaults (.int 7) false steps revisions paths annotations
          visits := by
  obtain ⟨report, hreport⟩ := Memory.exists_report_afterRuns (m := Memory.routeAdded)
    (List.pairwise_singleton _ _) rfl Memory.reviewable_routeAdded []
  have hrun : ((Reviewer.ofDefaults.run Memory.backend.observed (.int 7) false).run
      Memory.routeAdded).answer = .ok report := by
    rw [Memory.observed_backend]
    exact hreport
  obtain ⟨steps, revisions, paths, annotations, visits, -, -, haccounts⟩ :=
    run_accounts Reviewer.ofDefaults Memory.backend (.int 7) false Memory.routeAdded report hrun
  exact ⟨report, hrun, steps, revisions, paths, annotations, visits, haccounts⟩

end RouteWatch
