import RouteWatch.Proofs.Except
import RouteWatch.Proofs.Review.Replan
import RouteWatch.Proofs.Review.Steady

/-!
# Files that fail

A file whose content cannot be read or whose diff cannot be parsed concerns nothing but itself. A
run over a list of files goes on as the run over the list without such files does: it reports the
same on the other files, makes the same calls that change something, and comes to the same end.
-/

namespace RouteWatch

variable {σ V α : Type} {w : Aspect σ V} {b : Backend σ} {x : Answers} {r : Reviewer}
  {revisions : Revisions} {existing : List Annotation} {path : String} {change : Token}

/-- A list without some members that fulfil a condition. -/
inductive Without (p : α → Prop) : List α → List α → Prop where
  | nil : Without p [] []
  | keep {as bs : List α} (a : α) (h : Without p as bs) : Without p (a :: as) (a :: bs)
  | drop {a : α} {as bs : List α} (ha : p a) (h : Without p as bs) : Without p (a :: as) bs

/-! ### What becomes of a file -/

namespace Answers

/-- The content of a file in the base revision; a file that is not there is empty. -/
def base (x : Answers) (path : String) (revisions : Revisions) : Except Failure String :=
  (x.content path revisions.base).tryCatch fun failure ↦
    match failure with
    | .trouble ⟨.read, _, _⟩ => .ok ""
    | _ => .error failure

/-- The content of the base revision that a review looks at. -/
def baseFor (x : Answers) (r : Reviewer) (path : String) (revisions : Revisions) :
    Except Failure (Option String) :=
  if r.config.checkRemoved then (x.base path revisions).map some else .ok none

/-- What the review of a file comes to by these answers. -/
def preview (x : Answers) (r : Reviewer) (revisions : Revisions) (existing : List Annotation)
    (path : String) : Except Failure FileReport := do
  let diff ← x.diff path revisions
  let content ← x.content path revisions.head
  let base ← x.baseFor r path revisions
  r.preview path (some content) diff existing base

/-- The error of a route file whose review fails for the file alone. -/
def error? (x : Answers) (r : Reviewer) (revisions : Revisions) (path : String) :
    Option FileError :=
  if isRouteFile r.config path then
    match x.preview r revisions [] path with
    | .error (.trouble t) => if t.concernsFile then some ⟨path, t.kind, t.message⟩ else none
    | _ => none
  else none

/-- A run does nothing for a file, as it takes no part in the review or fails. -/
def Skips (x : Answers) (r : Reviewer) (revisions : Revisions) (path : String) : Prop :=
  isRouteFile r.config path = false ∨ ∃ e, x.error? r revisions path = some e

/-- Annotations are created in route files that do not fail, and in no other. -/
def Allows (x : Answers) (r : Reviewer) (revisions : Revisions) : Call → Prop
  | .create _ d => isRouteFile r.config d.path = true ∧ x.error? r revisions d.path = none
  | _ => True

/-- A review fails for the same cause whatever annotations exist. -/
theorem preview_eq_error_iff (existing existing' : List Annotation) {e : Failure} :
    x.preview r revisions existing path = .error e ↔
      x.preview r revisions existing' path = .error e := by
  simp only [preview, except_bind_eq_error_iff, Reviewer.preview_eq_map_findings,
    except_map_eq_error_iff]

/-- Which route files fail for themselves alone, and what is said of them. -/
theorem error?_eq_some_iff (existing : List Annotation) {e : FileError} :
    x.error? r revisions path = some e ↔
      isRouteFile r.config path = true ∧ ∃ t : Trouble, t.concernsFile = true ∧
        x.preview r revisions existing path = .error (.trouble t) ∧
          e = ⟨path, t.kind, t.message⟩ := by
  rw [error?]
  split
  next hroute =>
    rw [and_iff_right hroute]
    split
    next t ht =>
      rw [preview_eq_error_iff [] existing] at ht
      simp only [ht, Except.error.injEq, Failure.trouble.injEq]
      split
      next hfile =>
        constructor
        · intro h
          exact ⟨t, hfile, rfl, (Option.some.inj h).symm⟩
        · rintro ⟨_, -, rfl, rfl⟩
          rfl
      next hfile =>
        refine iff_of_false (fun h ↦ nomatch h) ?_
        rintro ⟨_, hfile', rfl, -⟩
        exact hfile hfile'
    next hother =>
      refine iff_of_false (fun h ↦ nomatch h) ?_
      rintro ⟨t, -, ht, -⟩
      exact hother t ((preview_eq_error_iff existing []).mp ht)
  next hroute => exact iff_of_false (fun h ↦ nomatch h) fun h ↦ hroute h.1

/-- A file that can be reviewed does not fail, and what is planned for it is planned in it. -/
theorem error?_of_preview {file : FileReport} (h : x.preview r revisions existing path = .ok file) :
    x.error? r revisions path = none ∧ ∀ d ∈ file.planned, d.path = path := by
  constructor
  · rw [Option.eq_none_iff_forall_ne_some]
    intro e he
    obtain ⟨-, t, -, ht, -⟩ := (error?_eq_some_iff existing).mp he
    rw [h] at ht
    cases ht
  · intro d hd
    obtain ⟨diff, -, h⟩ := except_bind_eq_ok_iff.mp h
    obtain ⟨content, -, h⟩ := except_bind_eq_ok_iff.mp h
    obtain ⟨base, -, h⟩ := except_bind_eq_ok_iff.mp h
    exact Reviewer.path_of_preview h hd

/-- A route file that does not fail for itself alone fails for no such cause. -/
theorem not_concernsFile {t : Trouble} (hroute : isRouteFile r.config path = true)
    (hnone : x.error? r revisions path = none)
    (ht : x.preview r revisions existing path = .error (.trouble t)) :
    ¬t.concernsFile = true := by
  intro hfile
  have hsome := (error?_eq_some_iff existing).mpr ⟨hroute, t, hfile, ht, rfl⟩
  rw [hnone] at hsome
  cases hsome

end Answers

/-! ### Reading a file -/

theorem Backend.Steady.reads_base (hb : b.Steady w x) :
    w.Reads (Reviewer.readBase b path revisions) (x.base path revisions) := by
  apply (hb.content path revisions.base).recover
  intro e
  cases e with
  | trouble t =>
    obtain ⟨kind, message, file⟩ := t
    cases kind with
    | read => exact Aspect.reads_pure ""
    | general | parse | api _ => exact Aspect.reads_fail _
  | _ => exact Aspect.reads_fail _

theorem Backend.Steady.reads_previewFrom (hb : b.Steady w x) :
    w.Reads (r.previewFrom b revisions existing path) (x.preview r revisions existing path) := by
  apply (hb.diff path revisions).bind
  intro diff
  apply (hb.content path revisions.head).bind
  intro content
  dsimp only
  unfold Answers.baseFor
  split
  · exact (hb.reads_base.map some).bind fun base ↦ Aspect.reads_ofExcept _
  · exact Aspect.reads_ofExcept _

/-! ### Reports -/

/-- Two reports differ in which files were considered and failed, and in nothing else. -/
structure RunReport.Alike (report report' : RunReport) : Prop where
  change : report.change = report'.change
  dryRun : report.dryRun = report'.dryRun
  files : report.files = report'.files
  created : report.created = report'.created
  escalated : report.escalated = report'.escalated

namespace RunReport

variable {report report' report'' : RunReport}

theorem Alike.symm (h : report.Alike report') : report'.Alike report :=
  ⟨h.change.symm, h.dryRun.symm, h.files.symm, h.created.symm, h.escalated.symm⟩

theorem Alike.trans (h : report.Alike report') (h' : report'.Alike report'') :
    report.Alike report'' :=
  ⟨h.change.trans h'.change, h.dryRun.trans h'.dryRun, h.files.trans h'.files,
    h.created.trans h'.created, h.escalated.trans h'.escalated⟩

end RunReport

/-- A report after some more files: the route files among them have been counted, and the errors
of those that fail stand at the end, in order. -/
structure Answers.Counts (x : Answers) (r : Reviewer) (revisions : Revisions)
    (paths : List String) (report next : RunReport) : Prop where
  considered : next.considered = report.considered + (paths.filter (isRouteFile r.config)).length
  errors : next.errors = report.errors ++ paths.filterMap (x.error? r revisions)

theorem Answers.Counts.of_eq {report next : RunReport}
    (hconsidered : next.considered = report.considered) (herrors : next.errors = report.errors) :
    x.Counts r revisions [] report next :=
  ⟨hconsidered, herrors.trans (List.append_nil _).symm⟩

theorem Answers.Counts.append {paths more : List String} {report next last : RunReport}
    (h : x.Counts r revisions paths report next) (h' : x.Counts r revisions more next last) :
    x.Counts r revisions (paths ++ more) report last where
  considered := by
    rw [h'.considered, h.considered, List.filter_append, List.length_append, Nat.add_assoc]
  errors := by rw [h'.errors, h.errors, List.filterMap_append, List.append_assoc]

/-- A route file that does not fail is counted. -/
theorem Answers.Counts.of_counted {report next : RunReport}
    (h : x.Counts r revisions [] { report with considered := report.considered + 1 } next)
    (hroute : isRouteFile r.config path = true) (hnone : x.error? r revisions path = none) :
    x.Counts r revisions [path] report next where
  considered := by
    rw [h.considered, List.filter_cons_of_pos hroute]
    rfl
  errors := by
    rw [h.errors, List.filterMap_cons_none hnone]

/-! ### One more file -/

variable {report report' : RunReport} {allowed : Call → Prop}

/-- Trouble with a file is added to the report. -/
theorem reads_fileFailed (hfast : r.config.failFast = false) {t : Trouble}
    (ht : t.concernsFile = true) :
    w.Reads (r.fileFailed report path (.trouble t))
      (.ok { report with errors := report.errors ++ [⟨path, t.kind, t.message⟩] }) := by
  unfold Reviewer.fileFailed
  dsimp only
  rw [if_pos ht, hfast]
  exact (Aspect.reads_emit rfl).bind_ok (Aspect.reads_pure _)

/-- Any other failure stops the run. -/
theorem fileFailed_eq_fail {e : Failure} (h : ∀ t, e = .trouble t → ¬t.concernsFile = true) :
    r.fileFailed report path e = (Act.fail e : Act σ RunReport) := by
  unfold Reviewer.fileFailed
  split
  next t => rw [if_neg (h t rfl)]
  next => rfl

/-- A file for which a run does nothing is counted, where it takes part, and its error is added. -/
theorem Backend.Steady.reads_reviewFile (hb : b.Steady w x) (hfast : r.config.failFast = false)
    (h : x.Skips r revisions path) :
    ∃ next, w.Reads (r.reviewFile b change revisions existing report path) (.ok next) ∧
      next.Alike report ∧ x.Counts r revisions [path] report next := by
  have hsame : report.Alike report := ⟨rfl, rfl, rfl, rfl, rfl⟩
  rcases h with hroute | ⟨e, he⟩
  · refine ⟨report, ?_, hsame, ?_, ?_⟩
    · rw [Reviewer.reviewFile, hroute]
      exact Aspect.reads_pure report
    · rw [List.filter_cons_of_neg (by simp [hroute])]
      rfl
    · rw [List.filterMap_cons_none (by simp [Answers.error?, hroute])]
      exact (List.append_nil _).symm
  · obtain ⟨hroute, t, hfile, ht, rfl⟩ := (Answers.error?_eq_some_iff existing).mp he
    have hreads : w.Reads (r.reviewFile b change revisions existing report path)
        (.ok { report with
          considered := report.considered + 1
          errors := report.errors ++ [⟨path, t.kind, t.message⟩] }) := by
      rw [Reviewer.reviewFile, hroute]
      apply hb.reads_previewFrom.attempt.bind_ok
      rw [ht]
      exact reads_fileFailed hfast hfile
    refine ⟨_, hreads, ⟨rfl, rfl, rfl, rfl, rfl⟩, ?_, ?_⟩
    · rw [List.filter_cons_of_pos hroute]
      rfl
    · rw [List.filterMap_cons_some he]
      rfl

/-- Annotations for the same drafts are created in both runs. -/
theorem Backend.Steady.matches_createAll (hb : b.Steady w x) (delay : Seconds)
    (previous : Option String) {ds : List Draft} (hds : ∀ d ∈ ds, allowed (.create change d)) :
    w.Matches allowed (· = ·) (createAll b change delay previous ds)
      (createAll b change delay previous ds) := by
  induction ds generalizing previous with
  | nil => exact Aspect.matches_pure rfl
  | cons d ds ih =>
    obtain ⟨hd, hds⟩ := List.forall_mem_cons.mp hds
    have hstep : w.Matches allowed (· = ·)
        (do
          let id ← b.create change d
          Act.print ("[Reconciler] Created annotation " ++ id.plain ++ " on " ++ d.path ++ ":" ++
            Text.showInt d.line)
          let ids ← createAll b change delay (some d.path) ds
          return id :: ids)
        (do
          let id ← b.create change d
          Act.print ("[Reconciler] Created annotation " ++ id.plain ++ " on " ++ d.path ++ ":" ++
            Text.showInt d.line)
          let ids ← createAll b change delay (some d.path) ds
          return id :: ids) := by
      apply ((hb.create change d).matches (List.forall_mem_singleton.mpr hd)).bind
      rintro id _ rfl
      apply (Aspect.reads_emit rfl).bind_matches (Aspect.reads_emit rfl)
      intro _ _
      apply (ih (some d.path) hds).bind
      rintro ids _ rfl
      exact Aspect.matches_pure rfl
    rw [createAll]
    dsimp only
    split
    · exact (Aspect.reads_emit rfl).bind_matches (Aspect.reads_emit rfl) fun _ _ ↦ hstep
    · exact hstep

/-- After some files in one run and some in the other the reports are alike, and each has counted
its files. -/
structure Answers.Alongside (x : Answers) (r : Reviewer) (revisions : Revisions)
    (paths paths' : List String) (report report' next next' : RunReport) : Prop where
  alike : next.Alike next'
  left : x.Counts r revisions paths report next
  right : x.Counts r revisions paths' report' next'

/-- What is planned for a file is created in both runs. -/
theorem Backend.Steady.matches_annotate (hb : b.Steady w x) {file : FileReport}
    (hfile : ∀ d ∈ file.planned, allowed (.create change d)) (h : report.Alike report') :
    w.Matches allowed (x.Alongside r revisions [] [] report report')
      (r.annotate b change report file) (r.annotate b change report' file) := by
  have hdone (ids : List Token) : w.Matches allowed
      (x.Alongside r revisions [] [] report report')
      (pure { report with
        files := report.files ++ [{ file with createdIds := ids }]
        created := report.created + ids.length })
      (pure { report' with
        files := report'.files ++ [{ file with createdIds := ids }]
        created := report'.created + ids.length }) := by
    apply Aspect.matches_pure
    refine ⟨⟨h.change, h.dryRun, ?_, ?_, h.escalated⟩, .of_eq rfl rfl, .of_eq rfl rfl⟩
    · exact congrArg (· ++ [{ file with createdIds := ids }]) h.files
    · exact congrArg (· + ids.length) h.created
  unfold Reviewer.annotate
  apply (Aspect.reads_emit rfl).bind_matches (Aspect.reads_emit rfl)
  intro _ _
  dsimp only
  by_cases hdry : report.dryRun = true
  · rw [if_pos hdry, if_pos (h.dryRun ▸ hdry), pure_bind, pure_bind]
    exact hdone []
  · rw [if_neg hdry, if_neg (h.dryRun ▸ hdry)]
    apply (hb.matches_createAll r.delay none hfile).bind
    rintro ids _ rfl
    exact hdone ids

/-- A file that both runs review. -/
theorem Backend.Steady.matches_reviewFile (hb : b.Steady w x) (hfast : r.config.failFast = false)
    (h : report.Alike report') :
    w.Matches (x.Allows r revisions) (x.Alongside r revisions [path] [path] report report')
      (r.reviewFile b change revisions existing report path)
      (r.reviewFile b change revisions existing report' path) := by
  by_cases hskips : x.Skips r revisions path
  · obtain ⟨next, hreads, hnext, hcounts⟩ := hb.reads_reviewFile hfast hskips
    obtain ⟨next', hreads', hnext', hcounts'⟩ := hb.reads_reviewFile hfast hskips
    exact hreads.matches hreads' (.ok ⟨hnext.trans (h.trans hnext'.symm), hcounts, hcounts'⟩)
  · rw [Answers.Skips, not_or, Bool.not_eq_false] at hskips
    obtain ⟨hroute, hnone⟩ := hskips
    replace hnone : x.error? r revisions path = none :=
      Option.eq_none_iff_forall_ne_some.mpr fun e he ↦ hnone ⟨e, he⟩
    rw [Reviewer.reviewFile, Reviewer.reviewFile, hroute]
    apply hb.reads_previewFrom.attempt.bind_matches hb.reads_previewFrom.attempt
    intro y hy
    obtain rfl := Except.ok.inj hy
    cases hx : x.preview r revisions existing path with
    | ok file =>
      have hplanned := (Answers.error?_of_preview hx).2
      have hcounted : RunReport.Alike { report with considered := report.considered + 1 }
          { report' with considered := report'.considered + 1 } :=
        ⟨h.change, h.dryRun, h.files, h.created, h.escalated⟩
      apply (hb.matches_annotate ?_ hcounted).imp
      · rintro next next' ⟨halike, hleft, hright⟩
        exact ⟨halike, hleft.of_counted hroute hnone, hright.of_counted hroute hnone⟩
      · intro d hd
        rw [← hplanned d hd] at hroute hnone
        exact ⟨hroute, hnone⟩
    | error e =>
      have hstops (report : RunReport) : r.fileFailed report path e = (Act.fail e : Act σ _) :=
        fileFailed_eq_fail fun t ht ↦ Answers.not_concernsFile hroute hnone (ht ▸ hx)
      dsimp only
      rw [hstops, hstops]
      exact Aspect.matches_fail e

/-! ### All files -/

/-- The paths in a list of files. -/
def pathsOf (files : List Token) : List String :=
  files.filterMap fun file ↦
    match file with
    | .text path => some path
    | _ => none

/-- A file in a list is one for which a run does nothing. -/
def Answers.SkipsListed (x : Answers) (r : Reviewer) (revisions : Revisions) (file : Token) :
    Prop :=
  ∃ path, file = .text path ∧ x.Skips r revisions path

/-- Two runs, of which one has files besides for which it does nothing, go through their files
alike. The induction is on how the one list comes from the other; a file that only one run has is
read in this run alone. -/
theorem Backend.Steady.matches_reviewFiles (hb : b.Steady w x)
    (hfast : r.config.failFast = false) {files kept : List Token}
    (hkept : Without (x.SkipsListed r revisions) files kept) (h : report.Alike report') :
    w.Matches (x.Allows r revisions)
      (x.Alongside r revisions (pathsOf files) (pathsOf kept) report report')
      (r.reviewFiles b change revisions existing report files)
      (r.reviewFiles b change revisions existing report' kept) := by
  induction hkept generalizing report report' with
  | nil =>
    exact Aspect.matches_pure ⟨h, .of_eq rfl rfl, .of_eq rfl rfl⟩
  | keep file _ ih =>
    cases file with
    | text path =>
      apply (hb.matches_reviewFile hfast h).bind
      intro next next' hnext
      apply (ih hnext.alike).imp
      rintro last last' ⟨halike, hleft, hright⟩
      exact ⟨halike, hnext.left.append hleft, hnext.right.append hright⟩
    | null | bool _ | int _ | real _ | list _ | object _ => exact Aspect.matches_fail _
  | drop hfile _ ih =>
    obtain ⟨path, rfl, hskips⟩ := hfile
    obtain ⟨next, hreads, hnext, hcounts⟩ := hb.reads_reviewFile hfast hskips
    apply hreads.bind_left
    apply (ih (hnext.trans h)).imp
    rintro last last' ⟨halike, hleft, hright⟩
    exact ⟨halike, hcounts.append hleft, hright⟩

/-! ### Runs -/

/-- Both runs call for attention, or none does. -/
theorem Backend.Steady.matches_escalate (hb : b.Steady w x) (h : report.Alike report') :
    w.Matches (x.Allows r revisions) (x.Alongside r revisions [] [] report report')
      (r.escalate b change report) (r.escalate b change report') := by
  unfold Reviewer.escalate
  rw [h.created]
  split
  · exact Aspect.matches_pure ⟨h, .of_eq rfl rfl, .of_eq rfl rfl⟩
  · apply ((hb.requestChanges change r.comment).matches
      (List.forall_mem_singleton.mpr trivial)).bind
    intro _ _ _
    apply ((hb.ensureLabel change r.config.label).matches
      (List.forall_mem_singleton.mpr trivial)).bind
    intro _ _ _
    exact Aspect.matches_pure
      ⟨⟨h.change, h.dryRun, h.files, rfl, rfl⟩, .of_eq rfl rfl, .of_eq rfl rfl⟩

theorem createAll_listing (files : List Token) (delay : Seconds) (previous : Option String)
    (ds : List Draft) :
    createAll (b.listing files) change delay previous ds =
      createAll b change delay previous ds := by
  induction ds generalizing previous with
  | nil => rfl
  | cons d ds ih =>
    simp only [createAll, ih]
    rfl

theorem reviewFiles_listing (files rest : List Token) (report : RunReport) :
    r.reviewFiles (b.listing files) change revisions existing report rest =
      r.reviewFiles b change revisions existing report rest := by
  have hfile (report : RunReport) (path : String) :
      r.reviewFile (b.listing files) change revisions existing report path =
        r.reviewFile b change revisions existing report path := by
    simp only [Reviewer.reviewFile, Reviewer.annotate, createAll_listing]
    rfl
  induction rest generalizing report with
  | nil => rfl
  | cons file rest ih =>
    cases file with
    | text path => simp only [Reviewer.reviewFiles, hfile, ih]
    | null | bool _ | int _ | real _ | list _ | object _ => rfl

/-- A report says how many route files a list has, and which of them failed for themselves alone,
in order. -/
structure Answers.Reports (x : Answers) (r : Reviewer) (revisions : Revisions)
    (files : List Token) (report : RunReport) : Prop where
  considered : report.considered = ((pathsOf files).filter (isRouteFile r.config)).length
  errors : report.errors = (pathsOf files).filterMap (x.error? r revisions)
  kinds : ∀ e ∈ report.errors, e.kind = .read ∨ e.kind = .parse

theorem Answers.Counts.reports {files : List Token} {next : RunReport}
    (h : x.Counts r revisions (pathsOf files) report next) (hconsidered : report.considered = 0)
    (herrors : report.errors = []) : x.Reports r revisions files next := by
  have hnext : next.errors = (pathsOf files).filterMap (x.error? r revisions) := by
    rw [h.errors, herrors, List.nil_append]
  refine ⟨by rw [h.considered, hconsidered, Nat.zero_add], hnext, ?_⟩
  intro e he
  rw [hnext, List.mem_filterMap] at he
  obtain ⟨path, -, he⟩ := he
  obtain ⟨-, t, hfile, -, rfl⟩ := (Answers.error?_eq_some_iff []).mp he
  simpa [Trouble.concernsFile] using hfile

/-- The runs over both lists of files end alike. -/
theorem Backend.Steady.matches_run (hb : b.Steady w x) (hfast : r.config.failFast = false)
    {files kept : List Token} (dryRun : Bool)
    (hkept : ∀ revisions, x.revisions change = .ok revisions →
      Without (x.SkipsListed r revisions) files kept) :
    w.Matches
      (fun call ↦ ∀ revisions, x.revisions change = .ok revisions → x.Allows r revisions call)
      (fun report report' ↦ report.Alike report' ∧ ∃ revisions,
        x.revisions change = .ok revisions ∧ x.Reports r revisions files report ∧
          x.Reports r revisions kept report')
      (r.run (b.listing files) change dryRun) (r.run (b.listing kept) change dryRun) := by
  unfold Reviewer.run
  simp only [reviewFiles_listing]
  apply (Aspect.reads_ofExcept _).bind_matches (Aspect.reads_ofExcept _)
  intro report hreport
  obtain ⟨n, rfl⟩ := Reviewer.eq_of_emptyReport hreport
  apply (hb.revisions change).bind_matches (hb.revisions change)
  intro revisions hrevisions
  have hallows (call : Call) (h : x.Allows r revisions call) (revisions' : Revisions)
      (hrevisions' : x.revisions change = .ok revisions') : x.Allows r revisions' call := by
    obtain rfl := Except.ok.inj (hrevisions.symm.trans hrevisions')
    exact h
  have hlists : SameAnswer (fun listed listed' ↦ listed = files ∧ listed' = kept)
      ((x.changedFiles change).map fun _ ↦ files) ((x.changedFiles change).map fun _ ↦ kept) := by
    cases x.changedFiles change with
    | error e => exact .error e
    | ok _ => exact .ok ⟨rfl, rfl⟩
  apply (((hb.changedFiles change).map _).matches ((hb.changedFiles change).map _) hlists).bind
  rintro _ _ ⟨rfl, rfl⟩
  apply ((hb.annotations change).matches fun _ hcall ↦ absurd hcall List.not_mem_nil).bind
  rintro existing _ rfl
  apply (Aspect.reads_emit rfl).bind_matches (Aspect.reads_emit rfl)
  intro _ _
  apply ((hb.matches_reviewFiles hfast (hkept revisions hrevisions)
    ⟨rfl, rfl, rfl, rfl, rfl⟩).allow hallows).bind
  intro next next' hnext
  apply ((hb.matches_escalate hnext.alike).allow hallows).imp
  rintro last last' ⟨halike, hleft, hright⟩
  replace hleft := hnext.left.append hleft
  replace hright := hnext.right.append hright
  rw [List.append_nil] at hleft hright
  exact ⟨halike, revisions, hrevisions, hleft.reports rfl rfl, hright.reports rfl rfl⟩

/-- When files for which a run does nothing are left out of its list, the run makes the same calls
that change something, leaves the same annotations, and fails for the same cause or reports the
same, apart from the files that it considered and the errors among them. It creates annotations in
route files that do not fail, and in no other. -/
theorem run_without_failing_files (r : Reviewer) (b : Backend σ) (w : Aspect σ V) (x : Answers)
    (change : Token) (dryRun : Bool) (s : σ) (files kept : List Token)
    (hfast : r.config.failFast = false) (hb : b.Steady w x) (hs : w.holds s)
    (hkept : ∀ revisions, x.revisions change = .ok revisions →
      Without (x.SkipsListed r revisions) files kept) :
    let full := (r.run (b.listing files) change dryRun).run s
    let less := (r.run (b.listing kept) change dryRun).run s
    writesOf full.trace = writesOf less.trace ∧
      ((b.annotations change).run full.state).answer =
        ((b.annotations change).run less.state).answer ∧
      SameAnswer (fun report report' ↦ report.Alike report' ∧ ∃ revisions,
        x.revisions change = .ok revisions ∧ x.Reports r revisions files report ∧
          x.Reports r revisions kept report') full.answer less.answer ∧
      ∀ call ∈ writesOf full.trace, ∀ revisions, x.revisions change = .ok revisions →
        x.Allows r revisions call := by
  intro full less
  obtain ⟨hsame, hanswers, hwrites, hallows⟩ :=
    hb.matches_run hfast dryRun hkept s s (Aspect.Same.refl hs)
  exact ⟨hwrites, ((hb.annotations change).same _ _ hsame).answers.eq, hanswers, hallows⟩

/-- A change that adds a route to a file, with a file whose diff is malformed. -/
def Memory.malformed : Memory where
  files := [⟨"README.md", none, some ""⟩, ⟨"service/routes/bad.js", some "", some ""⟩,
    ⟨"service/routes/x.js", some "const r = express.Router();\n",
      some "const r = express.Router();\nr.get();\n"⟩]
  diffs := [("service/routes/bad.js", "@@ -1 +1\n")]
  annotations := []
  author := "github-actions[bot]"
  rules := [⟨.ensureLabel, some 2, ⟨.api (some 502), "refused", none⟩⟩]
  calls := []

/-- A file that is no route file and one with a malformed diff are left out. -/
theorem run_without_failing_files_malformed :
    Reviewer.ofDefaults.config.failFast = false ∧
      Memory.backend.Steady Memory.malformed.aspect Memory.malformed.answers ∧
      Memory.malformed.aspect.holds Memory.malformed ∧
      (∀ revisions, Memory.malformed.answers.revisions (.int 7) = .ok revisions →
        Without (Memory.malformed.answers.SkipsListed Reviewer.ofDefaults revisions)
          [.text "README.md", .text "service/routes/bad.js", .text "service/routes/x.js"]
          [.text "service/routes/x.js"]) ∧
      writesOf ((Reviewer.ofDefaults.run (Memory.backend.listing
          [.text "README.md", .text "service/routes/bad.js", .text "service/routes/x.js"])
          (.int 7) false).run Memory.malformed).trace =
        writesOf ((Reviewer.ofDefaults.run (Memory.backend.listing
          [.text "service/routes/x.js"]) (.int 7) false).run Memory.malformed).trace := by
  have hfast : Reviewer.ofDefaults.config.failFast = false := rfl
  have hsteady : Memory.backend.Steady Memory.malformed.aspect Memory.malformed.answers :=
    Memory.steady_backend (List.forall_mem_singleton.mpr rfl)
  have hholds : Memory.malformed.aspect.holds Memory.malformed := ⟨rfl, rfl, rfl⟩
  have hkept (revisions : Revisions)
      (hrevisions : Memory.malformed.answers.revisions (.int 7) = .ok revisions) :
      Without (Memory.malformed.answers.SkipsListed Reviewer.ofDefaults revisions)
        [.text "README.md", .text "service/routes/bad.js", .text "service/routes/x.js"]
        [.text "service/routes/x.js"] := by
    obtain rfl := Except.ok.inj hrevisions
    apply Without.drop ⟨_, rfl, .inl (by decide +kernel)⟩
    apply Without.drop ⟨_, rfl, .inr (Option.isSome_iff_exists.mp (by decide +kernel))⟩
    exact .keep _ .nil
  exact ⟨hfast, hsteady, hholds, hkept, (run_without_failing_files _ _ _ _ _ false _ _ _ hfast
    hsteady hholds hkept).1⟩

end RouteWatch
