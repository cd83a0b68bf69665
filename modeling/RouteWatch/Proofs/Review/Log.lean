import RouteWatch.Proofs.Review.Dialogue
import RouteWatch.Proofs.Review.Replan
import RouteWatch.Review.Run

/-!
# The log of a run

The log of a run is the list of its pauses and of its calls with their answers. What a run does is
described by its logs, part by part: how a file is read, how what is planned for it is created, and
how a run goes on from file to file until something stops it. Every run, whatever its backend, has
such a log.
-/

namespace RouteWatch

variable {r : Reviewer} {change : Token} {revisions : Revisions} {existing : List Annotation}
  {path : String} {delay : Seconds} {ds : List Draft}

/-! ### Reading a file -/

/-- What was answered when a file was read, up to the first call that failed. The content in the
base revision may be left out, and may fail. -/
inductive Reading where
  | noDiff (e : Failure)
  | noContent (diff : String) (e : Failure)
  | read (diff content : String) (base : Option (Except Failure String))

/-- The content of a file in the base revision, which is empty where it cannot be read. -/
def baseText : Except Failure String → Except Failure String
  | .ok text => .ok text
  | .error e =>
    match e with
    | .trouble ⟨.read, _, _⟩ => .ok ""
    | _ => .error e

theorem baseText_error {e : Failure}
    (h : ∀ message file, e = .trouble ⟨.read, message, file⟩ → False) :
    baseText (.error e) = .error e := by
  simp only [baseText]

namespace Reading

/-- The calls that read a file. -/
def steps (path : String) (revisions : Revisions) : Reading → List Step
  | noDiff e => [.heard ⟨.diff path revisions, .error e⟩]
  | noContent diff e =>
    [.heard ⟨.diff path revisions, .ok diff⟩, .heard ⟨.content path revisions.head, .error e⟩]
  | read diff content base =>
    .heard ⟨.diff path revisions, .ok diff⟩ ::
      .heard ⟨.content path revisions.head, .ok content⟩ ::
        (base.map fun x ↦ Step.heard ⟨.content path revisions.base, x⟩).toList

/-- Reading a file creates nothing. -/
theorem isCreation_of_mem {step : Step} (reading : Reading)
    (h : step ∈ reading.steps path revisions) : step.event.isCreation = false := by
  have hall : (reading.steps path revisions).all (fun step ↦ !step.event.isCreation) = true := by
    cases reading with
    | read diff content base => cases base <;> rfl
    | _ => rfl
  exact Bool.not_eq_true' _ |>.mp (List.all_eq_true.mp hall step h)

/-- The content in the base revision is read where removed routes are looked for. -/
def Fits (r : Reviewer) : Reading → Prop
  | read _ _ base => base.isSome = r.config.checkRemoved
  | _ => True

/-- The review of a file by what was read. -/
def review (r : Reviewer) (path : String) (existing : List Annotation) :
    Reading → Except Failure FileReport
  | noDiff e => .error e
  | noContent _ e => .error e
  | read diff content none => r.preview path (some content) diff existing none
  | read diff content (some x) => do
    let base ← baseText x
    r.preview path (some content) diff existing (some base)

theorem review_base (diff content : String) (x : Except Failure String) :
    (read diff content (some x)).review r path existing =
      baseText x >>= fun base ↦ r.preview path (some content) diff existing (some base) :=
  rfl

/-- What is planned for a file stands in it. -/
theorem path_of_review {reading : Reading} {file : FileReport} {d : Draft}
    (h : reading.review r path existing = .ok file) (hd : d ∈ file.planned) : d.path = path := by
  cases reading with
  | noDiff e => cases h
  | noContent diff e => cases h
  | read diff content base =>
    cases base with
    | none => exact Reviewer.path_of_preview h hd
    | some x =>
      obtain ⟨base, -, hpreview⟩ := except_bind_eq_ok_iff.mp h
      exact Reviewer.path_of_preview hpreview hd

end Reading

theorem scripted_readBase (path : String) (revisions : Revisions) :
    Scripted (fun _ b ↦ Reviewer.readBase b path revisions) fun steps x ↦
      ∃ y : Except Failure String,
        steps = [.heard ⟨.content path revisions.base, y⟩] ∧ x = baseText y := by
  apply (scripted_content path revisions.base).recover
  · rintro _ v rfl
    exact ⟨.ok v, rfl, rfl⟩
  · intro e
    split
    next message file =>
      apply scripted_pure
      rintro _ rfl
      exact ⟨.error (.trouble ⟨.read, message, file⟩), rfl, rfl⟩
    next hother =>
      apply scripted_fail
      rintro _ rfl
      exact ⟨.error e, rfl, (baseText_error hother).symm⟩

theorem scripted_previewFrom (r : Reviewer) (revisions : Revisions) (existing : List Annotation)
    (path : String) :
    Scripted (fun _ b ↦ r.previewFrom b revisions existing path) fun steps x ↦
      ∃ reading : Reading, reading.Fits r ∧ steps = reading.steps path revisions ∧
        x = reading.review r path existing := by
  unfold Reviewer.previewFrom
  apply (scripted_diff path revisions).bind
  · rintro _ e rfl
    exact ⟨.noDiff e, trivial, rfl, rfl⟩
  intro diff
  apply (scripted_content path revisions.head).bind
  · rintro _ e rfl _ rfl
    exact ⟨.noContent diff e, trivial, rfl, rfl⟩
  intro content
  cases hremoved : r.config.checkRemoved with
  | false =>
    simp only [Bool.false_eq_true, if_false, pure_bind]
    apply scripted_ofExcept
    rintro _ rfl _ rfl
    exact ⟨.read diff content none, hremoved.symm, rfl, rfl⟩
  | true =>
    simp only [if_true, map_eq_pure_bind, bind_assoc, pure_bind]
    apply (scripted_readBase path revisions).bind
    · rintro _ e ⟨y, rfl, hy⟩ _ rfl _ rfl
      refine ⟨.read diff content (some y), hremoved.symm, rfl, ?_⟩
      rw [Reading.review_base, ← hy]
      rfl
    · intro base
      apply scripted_ofExcept
      rintro _ ⟨y, rfl, hy⟩ _ rfl _ rfl
      refine ⟨.read diff content (some y), hremoved.symm, rfl, ?_⟩
      rw [Reading.review_base, ← hy]
      rfl

/-! ### Creating what is planned -/

/-- The pause before an annotation, where the one before it was for the same file. -/
def pauseBefore (delay : Seconds) (previous : Option String) (d : Draft) : List Step :=
  if previous = some d.path && delay.isPositive then [.slept delay] else []

/-- The calls that create the annotations of drafts, up to the first one that fails, and what comes
of them. -/
inductive Creates (change : Token) (delay : Seconds) :
    Option String → List Draft → List Step → Except Failure (List Token) → Prop where
  | nil (previous : Option String) : Creates change delay previous [] [] (.ok [])
  | cons {previous : Option String} {d : Draft} {ds : List Draft} {id : Token} {steps : List Step}
      {x : Except Failure (List Token)} (rest : Creates change delay (some d.path) ds steps x) :
      Creates change delay previous (d :: ds)
        (pauseBefore delay previous d ++ .heard ⟨.create change d, .ok id⟩ :: steps)
        (x.map (id :: ·))
  | stop (previous : Option String) (d : Draft) (ds : List Draft) (e : Failure) :
      Creates change delay previous (d :: ds)
        (pauseBefore delay previous d ++ [.heard ⟨.create change d, .error e⟩]) (.error e)

theorem scripted_createAll (change : Token) (delay : Seconds) (previous : Option String)
    (ds : List Draft) :
    Scripted (fun _ b ↦ createAll b change delay previous ds)
      (Creates change delay previous ds) := by
  induction ds generalizing previous with
  | nil => exact scripted_pure (.nil previous)
  | cons d ds ih =>
    have hstep : Scripted (fun _ b ↦ do
        let id ← b.create change d
        Act.print ("[Reconciler] Created annotation " ++ id.plain ++ " on " ++ d.path ++ ":" ++
          Text.showInt d.line)
        let ids ← createAll b change delay (some d.path) ds
        return id :: ids) fun steps x ↦
          Creates change delay previous (d :: ds) (pauseBefore delay previous d ++ steps) x := by
      apply (scripted_create change d).bind
      · rintro _ e rfl
        exact .stop previous d ds e
      intro id
      apply Scripted.after_print
      apply (ih (some d.path)).bind
      · rintro steps e hrest _ rfl
        exact .cons hrest
      · intro ids
        apply scripted_pure
        rintro steps hrest _ rfl
        rw [List.append_nil]
        exact .cons hrest
    unfold createAll
    by_cases hpause : (decide (previous = some d.path) && delay.isPositive) = true
    · simp only [if_pos hpause]
      rw [pauseBefore, if_pos hpause] at hstep
      exact Scripted.after_sleep delay hstep
    · simp only [if_neg hpause]
      rw [pauseBefore, if_neg hpause] at hstep
      exact hstep

/-! ### One file after the other -/

/-- Trouble as a run raises it: trouble of a file names the file. -/
def Trouble.raisedFor (t : Trouble) (path : String) : Trouble :=
  if t.concernsFile then { t with path := some (t.knownPath?.getD path) } else t

/-- A failure as a run raises it. -/
def Failure.raisedFor (path : String) : Failure → Failure
  | .trouble t => .trouble (t.raisedFor path)
  | e => e

/-- A run goes on after this failure of a file. -/
def Reviewer.Survives (r : Reviewer) (e : Failure) : Prop :=
  r.config.failFast = false ∧ ∃ t, e = .trouble t ∧ t.concernsFile = true

/-- The report with one more file that was considered. -/
def RunReport.consider (report : RunReport) : RunReport :=
  { report with considered := report.considered + 1 }

/-- The report with a file for which annotations were created. -/
def RunReport.add (report : RunReport) (file : FileReport) (ids : List Token) : RunReport :=
  { report with
    files := report.files ++ [{ file with createdIds := ids }]
    created := report.created + ids.length }

/-- The report with a file that could not be reviewed. -/
def RunReport.leave (report : RunReport) (path : String) (t : Trouble) : RunReport :=
  { report with errors := report.errors ++ [⟨path, t.kind, t.message⟩] }

/-- What is created for a file: nothing in a dry run. -/
def Reviewer.Annotates (r : Reviewer) (change : Token) (dryRun : Bool) (ds : List Draft)
    (steps : List Step) (x : Except Failure (List Token)) : Prop :=
  if dryRun then steps = [] ∧ x = .ok [] else Creates change r.delay none ds steps x

/-- What a run does with a file of a change, and what it goes on with. -/
inductive Reviewer.Visits (r : Reviewer) (change : Token) (revisions : Revisions)
    (existing : List Annotation) (report : RunReport) (path : String) :
    List Step → Except Failure RunReport → Prop where
  | skipped (hroute : isRouteFile r.config path = false) :
      r.Visits change revisions existing report path [] (.ok report)
  | left {reading : Reading} {t : Trouble} (hroute : isRouteFile r.config path = true)
      (hfits : reading.Fits r) (hreview : reading.review r path existing = .error (.trouble t))
      (hfile : t.concernsFile = true) (hfast : r.config.failFast = false) :
      r.Visits change revisions existing report path (reading.steps path revisions)
        (.ok (report.consider.leave path t))
  | stopped {reading : Reading} {e : Failure} (hroute : isRouteFile r.config path = true)
      (hfits : reading.Fits r) (hreview : reading.review r path existing = .error e)
      (hstops : ¬r.Survives e) :
      r.Visits change revisions existing report path (reading.steps path revisions)
        (.error (e.raisedFor path))
  | reviewed {reading : Reading} {file : FileReport} {steps : List Step}
      {x : Except Failure (List Token)} (hroute : isRouteFile r.config path = true)
      (hfits : reading.Fits r) (hreview : reading.review r path existing = .ok file)
      (hannotates : r.Annotates change report.dryRun file.planned steps x) :
      r.Visits change revisions existing report path (reading.steps path revisions ++ steps)
        (x.map (report.consider.add file))

/-- What a run does with the files of a change, up to the first one that stops it. -/
inductive Reviewer.VisitsAll (r : Reviewer) (change : Token) (revisions : Revisions)
    (existing : List Annotation) :
    RunReport → List Token → List Step → Except Failure RunReport → Prop where
  | nil (report : RunReport) : r.VisitsAll change revisions existing report [] [] (.ok report)
  | cons {report next : RunReport} {path : String} {files : List Token} {steps rest : List Step}
      {x : Except Failure RunReport}
      (hfirst : r.Visits change revisions existing report path steps (.ok next))
      (hrest : r.VisitsAll change revisions existing next files rest x) :
      r.VisitsAll change revisions existing report (.text path :: files) (steps ++ rest) x
  | stopped {report : RunReport} {path : String} {files : List Token} {steps : List Step}
      {e : Failure} (hfirst : r.Visits change revisions existing report path steps (.error e)) :
      r.VisitsAll change revisions existing report (.text path :: files) steps (.error e)
  | misfit {report : RunReport} {file : Token} {files : List Token}
      (hfile : ∀ path, file ≠ .text path) :
      r.VisitsAll change revisions existing report (file :: files) []
        (.error (.misfit .noProperty))

theorem scripted_annotate (r : Reviewer) (change : Token) (report : RunReport)
    (file : FileReport) :
    Scripted (fun _ b ↦ r.annotate b change report file) fun steps x ↦
      ∃ y, r.Annotates change report.dryRun file.planned steps y ∧ x = y.map (report.add file) := by
  unfold Reviewer.annotate
  apply Scripted.after_print
  unfold Reviewer.Annotates
  by_cases hdry : report.dryRun = true
  · simp only [if_pos hdry, pure_bind]
    exact scripted_pure ⟨.ok [], ⟨rfl, rfl⟩, rfl⟩
  · simp only [if_neg hdry]
    apply (scripted_createAll change r.delay none file.planned).bind
    · intro steps e hcreates
      exact ⟨_, hcreates, rfl⟩
    · intro ids
      apply scripted_pure
      intro steps hcreates
      rw [List.append_nil]
      exact ⟨_, hcreates, rfl⟩

theorem scripted_fileFailed (r : Reviewer) (report : RunReport) (path : String) (e : Failure) :
    Scripted (fun _ _ ↦ r.fileFailed report path e) fun steps x ↦
      steps = [] ∧ ((∃ t, e = .trouble t ∧ t.concernsFile = true ∧ r.config.failFast = false ∧
          x = .ok (report.leave path t)) ∨ ¬r.Survives e ∧ x = .error (e.raisedFor path)) := by
  unfold Reviewer.fileFailed
  cases e with
  | trouble t =>
    by_cases hfile : t.concernsFile = true
    · simp only [if_pos hfile]
      apply Scripted.after_warn
      by_cases hfast : r.config.failFast = true
      · simp only [if_pos hfast]
        refine scripted_fail ⟨rfl, .inr ⟨?_, ?_⟩⟩
        · rintro ⟨hslow, -⟩
          rw [hfast] at hslow
          cases hslow
        · rw [Failure.raisedFor, Trouble.raisedFor, if_pos hfile]
      · simp only [if_neg hfast]
        exact scripted_pure ⟨rfl, .inl ⟨t, rfl, hfile, Bool.eq_false_iff.mpr hfast, rfl⟩⟩
    · simp only [if_neg hfile]
      refine scripted_fail ⟨rfl, .inr ⟨?_, ?_⟩⟩
      · rintro ⟨-, _, heq, hfile'⟩
        obtain rfl := Failure.trouble.inj heq
        exact hfile hfile'
      · rw [Failure.raisedFor, Trouble.raisedFor, if_neg hfile]
  | _ =>
    refine scripted_fail ⟨rfl, .inr ⟨?_, rfl⟩⟩
    rintro ⟨-, _, heq, -⟩
    cases heq

theorem scripted_reviewFile (r : Reviewer) (change : Token) (revisions : Revisions)
    (existing : List Annotation) (report : RunReport) (path : String) :
    Scripted (fun _ b ↦ r.reviewFile b change revisions existing report path)
      (r.Visits change revisions existing report path) := by
  unfold Reviewer.reviewFile
  by_cases hroute : isRouteFile r.config path = true
  · simp only [hroute, Bool.not_true, Bool.false_eq_true, if_false]
    apply (scripted_previewFrom r revisions existing path).attempt_bind
    rintro (e | file)
    · apply (scripted_fileFailed r report.consider path e).imp
      rintro _ x ⟨rfl, hx⟩ _ ⟨reading, hfits, rfl, hreview⟩
      rw [List.append_nil]
      rcases hx with ⟨t, rfl, hfile, hfast, rfl⟩ | ⟨hstops, rfl⟩
      · exact .left hroute hfits hreview.symm hfile hfast
      · exact .stopped hroute hfits hreview.symm hstops
    · apply (scripted_annotate r change report.consider file).imp
      rintro steps x ⟨y, hannotates, rfl⟩ _ ⟨reading, hfits, rfl, hreview⟩
      exact .reviewed hroute hfits hreview.symm hannotates
  · rw [Bool.not_eq_true] at hroute
    simp only [hroute, Bool.not_false, if_true]
    exact scripted_pure (.skipped hroute)

theorem scripted_reviewFiles (r : Reviewer) (change : Token) (revisions : Revisions)
    (existing : List Annotation) (report : RunReport) (files : List Token) :
    Scripted (fun _ b ↦ r.reviewFiles b change revisions existing report files)
      (r.VisitsAll change revisions existing report files) := by
  induction files generalizing report with
  | nil => exact scripted_pure (.nil report)
  | cons file files ih =>
    unfold Reviewer.reviewFiles
    cases file with
    | text path =>
      apply (scripted_reviewFile r change revisions existing report path).bind
      · intro steps e hfirst
        exact .stopped hfirst
      · intro next
        apply (ih next).imp
        intro rest x hrest steps hfirst
        exact .cons hfirst hrest
    | _ => exact scripted_fail (.misfit fun _ h ↦ nomatch h)

/-! ### A run -/

/-- The calls for attention after a run, and what they make of its report. -/
inductive Reviewer.Escalates (r : Reviewer) (change : Token) (report : RunReport) :
    List Step → Except Failure RunReport → Prop where
  | unneeded (h : report.created = 0) : r.Escalates change report [] (.ok report)
  | refused (h : report.created ≠ 0) (e : Failure) :
      r.Escalates change report [.heard ⟨.requestChanges change r.comment, .error e⟩] (.error e)
  | unlabelled (h : report.created ≠ 0) (e : Failure) :
      r.Escalates change report
        [.heard ⟨.requestChanges change r.comment, .ok ()⟩,
          .heard ⟨.ensureLabel change r.config.label, .error e⟩] (.error e)
  | done (h : report.created ≠ 0) :
      r.Escalates change report
        [.heard ⟨.requestChanges change r.comment, .ok ()⟩,
          .heard ⟨.ensureLabel change r.config.label, .ok ()⟩]
        (.ok { report with escalated := true })

/-- The annotations that a run goes by: those of its own author. -/
def Reviewer.own (r : Reviewer) (annotations : List Annotation) : List Annotation :=
  annotations.filter (·.author = some r.config.author)

/-- The calls at the start of a run that all succeed. -/
def opening (change : Token) (revisions : Revisions) (files : List Token)
    (annotations : List Annotation) : List Step :=
  [.heard ⟨.revisions change, .ok revisions⟩, .heard ⟨.changedFiles change, .ok files⟩,
    .heard ⟨.annotations change, .ok annotations⟩]

/-- The logs of runs, each with what the run answers. -/
inductive Reviewer.Logs (r : Reviewer) (change : Token) (dryRun : Bool) :
    List Step → Except Failure RunReport → Prop where
  | invalid {e : Failure} (h : emptyReport change dryRun = .error e) :
      r.Logs change dryRun [] (.error e)
  | noRevisions (e : Failure) :
      r.Logs change dryRun [.heard ⟨.revisions change, .error e⟩] (.error e)
  | noFiles (revisions : Revisions) (e : Failure) :
      r.Logs change dryRun [.heard ⟨.revisions change, .ok revisions⟩,
        .heard ⟨.changedFiles change, .error e⟩] (.error e)
  | noAnnotations (revisions : Revisions) (files : List Token) (e : Failure) :
      r.Logs change dryRun [.heard ⟨.revisions change, .ok revisions⟩,
        .heard ⟨.changedFiles change, .ok files⟩, .heard ⟨.annotations change, .error e⟩] (.error e)
  | stopped {report : RunReport} {revisions : Revisions} {files : List Token}
      {annotations : List Annotation} {steps : List Step} {e : Failure}
      (hreport : emptyReport change dryRun = .ok report)
      (hvisits : r.VisitsAll change revisions (r.own annotations) report files steps (.error e)) :
      r.Logs change dryRun (opening change revisions files annotations ++ steps) (.error e)
  | reviewed {report last : RunReport} {revisions : Revisions} {files : List Token}
      {annotations : List Annotation} {steps rest : List Step} {x : Except Failure RunReport}
      (hreport : emptyReport change dryRun = .ok report)
      (hvisits : r.VisitsAll change revisions (r.own annotations) report files steps (.ok last))
      (hescalates : r.Escalates change last rest x) :
      r.Logs change dryRun (opening change revisions files annotations ++ (steps ++ rest)) x

theorem scripted_escalate (r : Reviewer) (change : Token) (report : RunReport) :
    Scripted (fun _ b ↦ r.escalate b change report) (r.Escalates change report) := by
  unfold Reviewer.escalate
  by_cases hnone : report.created = 0
  · simp only [if_pos hnone]
    exact scripted_pure (.unneeded hnone)
  · simp only [if_neg hnone]
    apply (scripted_requestChanges change r.comment).bind
    · rintro _ e rfl
      exact .refused hnone e
    intro _
    apply (scripted_ensureLabel change r.config.label).bind
    · rintro _ e rfl _ rfl
      exact .unlabelled hnone e
    · intro _
      apply scripted_pure
      rintro _ rfl _ rfl
      exact .done hnone

/-- A run has a log, whatever its backend. -/
theorem scripted_run (r : Reviewer) (change : Token) (dryRun : Bool) :
    Scripted (fun _ b ↦ r.run b change dryRun) (r.Logs change dryRun) := by
  unfold Reviewer.run
  have hempty : Scripted (fun _ _ ↦ Act.ofExcept (Reviewer.emptyReport change dryRun))
      fun steps x ↦ steps = [] ∧ x = Reviewer.emptyReport change dryRun :=
    scripted_ofExcept ⟨rfl, rfl⟩
  apply hempty.bind
  · rintro _ e ⟨rfl, he⟩
    exact .invalid he.symm
  intro report
  apply (scripted_revisions change).bind
  · rintro _ e rfl _ ⟨rfl, -⟩
    exact .noRevisions e
  intro revisions
  apply (scripted_changedFiles change).bind
  · rintro _ e rfl _ rfl _ ⟨rfl, -⟩
    exact .noFiles revisions e
  intro files
  apply (scripted_annotations change).bind
  · rintro _ e rfl _ rfl _ rfl _ ⟨rfl, -⟩
    exact .noAnnotations revisions files e
  intro annotations
  apply Scripted.after_print
  apply (scripted_reviewFiles r change revisions (r.own annotations) report files).bind
  · rintro steps e hvisits _ rfl _ rfl _ rfl _ ⟨rfl, hreport⟩
    exact .stopped hreport.symm hvisits
  · intro last
    apply (scripted_escalate r change last).imp
    rintro rest x hescalates steps hvisits _ rfl _ rfl _ rfl _ ⟨rfl, hreport⟩
    exact .reviewed hreport.symm hvisits hescalates

/-- Runs with all backends are one dialogue, and each of its courses is a log. -/
theorem Reviewer.exists_dialogue (r : Reviewer) (change : Token) (dryRun : Bool) :
    ∃ d : Dialogue RunReport, d.Fulfils (r.Logs change dryRun) ∧
      ∀ (σ : Type) (b : Backend σ), r.run b.observed change dryRun = d.play b :=
  scripted_run r change dryRun

end RouteWatch
