import RouteWatch.Proofs.Action.Rehearsal
import RouteWatch.Proofs.Review.CompletedRuns
import RouteWatch.Proofs.Review.FailingFiles
import RouteWatch.Proofs.Review.Steady

/-!
# Dry runs

A dry run reads and writes nothing, whatever its backend answers. It rehearses the live run from
the same state: where what is read does not depend on what was created before, a live run that ends
with a report creates what the dry run plans, file by file, and reports the same besides.
-/

namespace RouteWatch

variable {σ V : Type} {w : Aspect σ V} {b : Backend σ} {r : Reviewer} {change : Token}
  {revisions : Revisions} {existing : List Annotation} {path : String}
  {report next last : RunReport}

/-! ### The log of a dry run -/

/-- The step is a call that changes nothing. -/
def Step.IsRead : Step → Prop
  | .slept _ => False
  | .heard reply => reply.call.writes = false

theorem Reading.isRead_of_mem {step : Step} (reading : Reading)
    (h : step ∈ reading.steps path revisions) : step.IsRead := by
  cases reading with
  | noDiff e =>
    obtain rfl := List.mem_singleton.mp h
    rfl
  | noContent diff e =>
    obtain rfl | h := List.mem_cons.mp h
    · rfl
    · obtain rfl := List.mem_singleton.mp h
      rfl
  | read diff content base =>
    obtain rfl | h := List.mem_cons.mp h
    · rfl
    obtain rfl | h := List.mem_cons.mp h
    · rfl
    · obtain ⟨x, -, rfl⟩ := Option.map_eq_some_iff.mp (Option.mem_toList.mp h)
      rfl

/-- A dry run that has created nothing goes on as such. -/
def RunReport.IsIdle (report : RunReport) : Prop := report.dryRun = true ∧ report.created = 0

/-- In a dry run a file is only read. -/
theorem Reviewer.Visits.isRead {steps : List Step} {x : Except Failure RunReport}
    (h : r.Visits change revisions existing report path steps x) (hidle : report.IsIdle) :
    (∀ step ∈ steps, step.IsRead) ∧ ∀ next, x = .ok next → next.IsIdle := by
  cases h with
  | skipped =>
    refine ⟨fun _ h ↦ absurd h List.not_mem_nil, fun next hnext ↦ ?_⟩
    rwa [← Except.ok.inj hnext]
  | left =>
    refine ⟨fun _ ↦ Reading.isRead_of_mem _, fun next hnext ↦ ?_⟩
    rw [← Except.ok.inj hnext]
    exact hidle
  | stopped => exact ⟨fun _ ↦ Reading.isRead_of_mem _, fun _ h ↦ nomatch h⟩
  | @reviewed reading file steps y _ _ _ hannotates =>
    rw [Annotates, if_pos hidle.1] at hannotates
    obtain ⟨rfl, rfl⟩ := hannotates
    rw [List.append_nil]
    refine ⟨fun _ ↦ reading.isRead_of_mem, fun next hnext ↦ ?_⟩
    rw [← Except.ok.inj hnext]
    exact hidle

theorem Reviewer.VisitsAll.isRead {files : List Token} {steps : List Step}
    {x : Except Failure RunReport}
    (h : r.VisitsAll change revisions existing report files steps x) (hidle : report.IsIdle) :
    (∀ step ∈ steps, step.IsRead) ∧ ∀ last, x = .ok last → last.IsIdle := by
  induction h with
  | nil report =>
    refine ⟨fun _ h ↦ absurd h List.not_mem_nil, fun last hlast ↦ ?_⟩
    rwa [← Except.ok.inj hlast]
  | cons hfirst _ ih =>
    obtain ⟨hreads, hnext⟩ := hfirst.isRead hidle
    obtain ⟨hrest, hlast⟩ := ih (hnext _ rfl)
    exact ⟨List.forall_mem_append.mpr ⟨hreads, hrest⟩, hlast⟩
  | stopped hfirst => exact ⟨(hfirst.isRead hidle).1, fun _ h ↦ nomatch h⟩
  | misfit => exact ⟨fun _ h ↦ absurd h List.not_mem_nil, fun _ h ↦ nomatch h⟩

/-- The steps of a dry run are calls that change nothing: it creates nothing, calls for no
attention and makes no pause. -/
theorem Reviewer.Logs.isRead {steps : List Step} {x : Except Failure RunReport}
    (h : r.Logs change true steps x) : ∀ step ∈ steps, step.IsRead := by
  have hidle {report : RunReport} (hreport : emptyReport change true = .ok report) :
      report.IsIdle := by
    obtain ⟨n, rfl⟩ := eq_of_emptyReport hreport
    exact ⟨rfl, rfl⟩
  have hopening (revisions : Revisions) (files : List Token) (annotations : List Annotation) :
      ∀ step ∈ opening change revisions files annotations, step.IsRead := by
    simp [opening, Step.IsRead, Call.writes]
  cases h with
  | stopped hreport hvisits =>
    exact List.forall_mem_append.mpr ⟨hopening _ _ _, (hvisits.isRead (hidle hreport)).1⟩
  | reviewed hreport hvisits hescalates =>
    obtain ⟨hreads, hlast⟩ := hvisits.isRead (hidle hreport)
    have hnone := (hlast _ rfl).2
    cases hescalates with
    | unneeded =>
      rw [List.append_nil]
      exact List.forall_mem_append.mpr ⟨hopening _ _ _, hreads⟩
    | refused hsome | unlabelled hsome | done hsome => exact absurd hnone hsome
  | _ => simp [Step.IsRead, Call.writes]

/-- What can be seen of steps that only read. -/
theorem quiet_of_isRead {trace : List Event} {steps : List Step}
    (hseen : trace.filter Event.isStep = steps.map Step.event)
    (h : ∀ step ∈ steps, step.IsRead) :
    writesOf trace = [] ∧ ∀ time, Event.slept time ∉ trace := by
  have hread {e : Event} (he : e ∈ trace) (hstep : e.isStep = true) :
      ∃ step : Step, step.IsRead ∧ step.event = e := by
    have hmem : e ∈ trace.filter Event.isStep := List.mem_filter.mpr ⟨he, hstep⟩
    rw [hseen] at hmem
    obtain ⟨step, hsteps, rfl⟩ := List.mem_map.mp hmem
    exact ⟨step, h step hsteps, rfl⟩
  constructor
  · rw [writesOf, List.filterMap_eq_nil_iff]
    intro e he
    cases e with
    | called call =>
      obtain ⟨step, hstep, hcall⟩ := hread he rfl
      cases step with
      | slept time => cases hcall
      | heard reply =>
        obtain rfl := Event.called.inj hcall
        rw [Event.write?, show reply.call.writes = false from hstep]
        rfl
    | _ => rfl
  · intro time he
    obtain ⟨step, hstep, htime⟩ := hread he rfl
    cases step with
    | slept time => exact hstep
    | heard reply => cases htime

/-- Calls that change nothing leave the annotations of the backend in memory. -/
theorem Memory.annotations_of_isRead {m : Memory} {steps : List Step}
    (h : ∀ step ∈ steps, step.IsRead) : (m.afterSteps steps).annotations = m.annotations := by
  induction steps generalizing m with
  | nil => rfl
  | cons step steps ih =>
    obtain ⟨hstep, hsteps⟩ := List.forall_mem_cons.mp h
    cases step with
    | slept time => exact absurd hstep id
    | heard reply =>
      have hreply : (m.after reply).annotations = m.annotations := by
        obtain ⟨call, answer⟩ := reply
        cases call with
        | create change d => cases hstep
        | _ => rfl
      rw [← hreply]
      exact ih hsteps

/-! ### Reads apart from what is created -/

/-- What a backend reads for the review of a file goes by what is looked at, and creating an
annotation leaves that alone. Each call that changes something is noted once. -/
structure Backend.ReadsApart (b : Backend σ) (w : Aspect σ V) : Prop where
  revisions : ∀ change s, writesOf ((b.revisions change).run s).trace = []
  changedFiles : ∀ change s, writesOf ((b.changedFiles change).run s).trace = []
  annotations : ∀ change s, writesOf ((b.annotations change).run s).trace = []
  content : ∀ path ref, w.Follows (b.content path ref) []
  diff : ∀ path revisions, w.Follows (b.diff path revisions) []
  create : ∀ change d s, w.holds s → w.Same s ((b.create change d).run s).state ∧
    writesOf ((b.create change d).run s).trace = [.create change d]
  requestChanges : ∀ change body s,
    writesOf ((b.requestChanges change body).run s).trace = [.requestChanges change body]
  ensureLabel : ∀ change name s,
    writesOf ((b.ensureLabel change name).run s).trace = [.ensureLabel change name]

namespace Backend.ReadsApart

theorem follows_readBase (hb : b.ReadsApart w) :
    w.Follows (Reviewer.readBase b path revisions) [] := by
  apply (hb.content path revisions.base).recover
  intro e
  split
  · exact (Aspect.reads_pure _).follows
  · exact (Aspect.reads_fail _).follows

theorem follows_previewFrom (hb : b.ReadsApart w) :
    w.Follows (r.previewFrom b revisions existing path) [] := by
  apply (hb.diff path revisions).bind
  intro diff
  apply (hb.content path revisions.head).bind
  intro content
  dsimp only
  split
  · rw [map_eq_pure_bind, bind_assoc]
    apply hb.follows_readBase.bind
    intro base
    exact (Aspect.reads_ofExcept _).follows
  · exact (Aspect.reads_ofExcept _).follows

end Backend.ReadsApart

/-! ### What a dry run tells -/

/-- The report of the dry run that rehearses a run with a report. -/
def RunReport.rehearsal (report : RunReport) : RunReport :=
  { report with
    dryRun := true
    files := report.files.map fun file ↦ { file with createdIds := [] }
    created := 0
    escalated := false }

/-- What is planned in the files of a report, in order. -/
def RunReport.drafts (report : RunReport) : List Draft := report.files.flatMap (·.planned)

/-- The calls for attention after some annotations were created. -/
def Reviewer.attentionAfter (r : Reviewer) (change : Token) (ds : List Draft) : List Call :=
  if ds = [] then [] else [.requestChanges change r.comment, .ensureLabel change r.config.label]

/-- Between two reports of a live run annotations were created for what is planned in the files
that the second has in addition, and its rehearsal is the report given. -/
structure RunReport.Foretold (change : Token) (report next next' : RunReport)
    (calls : List Call) : Prop where
  rehearsal : next' = next.rehearsal
  dryRun : next.dryRun = report.dryRun
  drafts : ∃ ds, next.drafts = report.drafts ++ ds ∧ calls = ds.map (.create change) ∧
    next.created = report.created + ds.length

namespace RunReport.Foretold

variable {next' last' : RunReport} {calls more : List Call}

/-- Nothing was created. -/
theorem of_nothing (hfiles : next.files = report.files) (hdryRun : next.dryRun = report.dryRun)
    (hcreated : next.created = report.created) :
    Foretold change report next next.rehearsal [] :=
  ⟨rfl, hdryRun, [], by rw [RunReport.drafts, hfiles, List.append_nil, RunReport.drafts], rfl,
    hcreated⟩

theorem trans (h : Foretold change report next next' calls)
    (h' : Foretold change next last last' more) :
    Foretold change report last last' (calls ++ more) := by
  obtain ⟨ds, hdrafts, rfl, hcreated⟩ := h.drafts
  obtain ⟨es, hmore, rfl, hcreated'⟩ := h'.drafts
  refine ⟨h'.rehearsal, h'.dryRun.trans h.dryRun, ds ++ es, ?_, List.map_append.symm, ?_⟩
  · rw [hmore, hdrafts, List.append_assoc]
  · rw [hcreated', hcreated, List.length_append, Nat.add_assoc]

end RunReport.Foretold

namespace Backend.ReadsApart

variable {report' : RunReport}

/-- One of the runs does something alone that leaves alone what is looked at. -/
private theorem rehearses_bind_left {α β γ : Type} {live : Act σ α} {f : α → Act σ β}
    {dry : Act σ γ} {R : σ → σ → Prop} {P : β → γ → List Call → Prop} {calls : List Call}
    (h : ∀ s, w.holds s → w.Same s (live.run s).state ∧ writesOf (live.run s).trace = calls)
    (hf : ∀ v, Act.Rehearses w.Same R (fun u u' more ↦ P u u' (calls ++ more)) (f v) dry) :
    Act.Rehearses w.Same R P (live >>= f) dry := by
  have halone : Act.Rehearses w.Same w.Same (fun _ _ more ↦ more = calls) live
      (pure () : Act σ Unit) := by
    intro s s' hs v hv
    obtain ⟨hsame, hcalls⟩ := h s hs.left
    exact ⟨(), rfl, hsame.symm.trans hs, hcalls⟩
  rw [← pure_bind () fun _ ↦ dry]
  apply halone.bind
  rintro v _ _ rfl
  exact hf v

/-- What is created for drafts in the live run is passed over in the dry run. -/
theorem rehearses_createAll (hb : b.ReadsApart w) (delay : Seconds) (previous : Option String)
    (ds : List Draft) :
    Act.Rehearses w.Same w.Same
      (fun ids none calls ↦ none = [] ∧ ids.length = ds.length ∧ calls = ds.map (.create change))
      (createAll b change delay previous ds) (pure [] : Act σ (List Token)) := by
  have hquiet {e : Event} (he : e.write? = none) (s : σ) (hs : w.holds s) :
      w.Same s ((Act.emit e).run s).state ∧ writesOf ((Act.emit e).run s).trace = [] := by
    obtain ⟨-, hsame, htrace⟩ := Aspect.reads_emit he s hs
    exact ⟨hsame, htrace⟩
  induction ds generalizing previous with
  | nil => exact Act.rehearses_pure ⟨rfl, rfl, rfl⟩
  | cons d ds ih =>
    have hstep : Act.Rehearses w.Same w.Same
        (fun ids none calls ↦ none = [] ∧ ids.length = ds.length + 1 ∧
          calls = .create change d :: ds.map (.create change))
        (do
          let id ← b.create change d
          Act.print ("[Reconciler] Created annotation " ++ id.plain ++ " on " ++ d.path ++ ":" ++
            Text.showInt d.line)
          let ids ← createAll b change delay (some d.path) ds
          return id :: ids) (pure [] : Act σ (List Token)) := by
      apply rehearses_bind_left (hb.create change d)
      intro id
      apply rehearses_bind_left (hquiet rfl)
      intro _
      rw [← bind_pure (pure [] : Act σ (List Token))]
      apply (ih (some d.path)).bind
      rintro ids _ _ ⟨rfl, hlength, rfl⟩
      exact Act.rehearses_pure ⟨rfl, congrArg Nat.succ hlength, congrArg _ (List.append_nil _)⟩
    rw [createAll]
    dsimp only
    split
    · exact rehearses_bind_left (hquiet rfl) fun _ ↦ hstep
    · exact hstep

private theorem rehearses_emit {e : Event} (he : e.write? = none) :
    Act.Rehearses w.Same w.Same (fun _ _ calls ↦ calls = []) (Act.emit e) (Act.emit e) :=
  (Act.rehearses_of_follows (Aspect.reads_emit he).follows).imp fun _ _ _ h ↦ h.2

/-- The annotations that are planned for a file are created in the live run. -/
theorem rehearses_annotate (hb : b.ReadsApart w) (file : FileReport)
    (hlive : report.dryRun = false) :
    Act.Rehearses w.Same w.Same (RunReport.Foretold change report)
      (r.annotate b change report file) (r.annotate b change report.rehearsal file) := by
  unfold Reviewer.annotate
  apply (rehearses_emit rfl).bind
  rintro _ _ _ rfl
  dsimp only
  rw [hlive, if_neg Bool.false_ne_true, RunReport.rehearsal, if_pos rfl]
  apply (hb.rehearses_createAll r.delay none file.planned).bind
  rintro ids _ _ ⟨rfl, hlength, rfl⟩
  apply Act.rehearses_pure
  refine ⟨?_, hlive.symm, file.planned, ?_, List.append_nil _, congrArg _ hlength⟩
  · simp [RunReport.rehearsal]
  · simp [RunReport.drafts]

/-- A file that cannot be reviewed ends both runs, or is in both reports. -/
theorem rehearses_fileFailed (e : Failure) :
    Act.Rehearses w.Same w.Same (RunReport.Foretold change report)
      (r.fileFailed report path e : Act σ RunReport) (r.fileFailed report.rehearsal path e) := by
  unfold Reviewer.fileFailed
  cases e with
  | trouble t =>
    dsimp only
    split
    · apply (rehearses_emit rfl).bind
      rintro _ _ _ rfl
      split
      · exact Act.rehearses_fail _
      · exact Act.rehearses_pure (.of_nothing rfl rfl rfl)
    · exact Act.rehearses_fail _
  | _ => exact Act.rehearses_fail _

theorem rehearses_reviewFile (hb : b.ReadsApart w) (path : String)
    (hlive : report.dryRun = false) :
    Act.Rehearses w.Same w.Same (RunReport.Foretold change report)
      (r.reviewFile b change revisions existing report path)
      (r.reviewFile b change revisions existing report.rehearsal path) := by
  have hconsidered {next next' : RunReport} {calls : List Call}
      (h : RunReport.Foretold change report.consider next next' calls) :
      RunReport.Foretold change report next next' calls :=
    ⟨h.rehearsal, h.dryRun, h.drafts⟩
  unfold Reviewer.reviewFile
  dsimp only
  split
  · exact Act.rehearses_pure (.of_nothing rfl rfl rfl)
  · apply (Act.rehearses_of_follows hb.follows_previewFrom.attempt).bind
    rintro x _ _ ⟨rfl, rfl⟩
    cases x with
    | ok file =>
      have hannotate : Act.Rehearses w.Same w.Same (RunReport.Foretold change report.consider)
          (r.annotate b change report.consider file)
          (r.annotate b change report.consider.rehearsal file) := hb.rehearses_annotate file hlive
      exact hannotate.imp fun _ _ _ ↦ hconsidered
    | error e =>
      exact (rehearses_fileFailed e).imp fun _ _ _ ↦ hconsidered

/-- The dry run goes through the files as the live run does. -/
theorem rehearses_reviewFiles (hb : b.ReadsApart w) (files : List Token)
    (hlive : report.dryRun = false) :
    Act.Rehearses w.Same w.Same (RunReport.Foretold change report)
      (r.reviewFiles b change revisions existing report files)
      (r.reviewFiles b change revisions existing report.rehearsal files) := by
  induction files generalizing report with
  | nil => exact Act.rehearses_pure (.of_nothing rfl rfl rfl)
  | cons file files ih =>
    unfold Reviewer.reviewFiles
    cases file with
    | text path =>
      apply (hb.rehearses_reviewFile path hlive).bind
      intro next next' calls hnext
      obtain rfl := hnext.rehearsal
      apply (ih (hnext.dryRun.trans hlive)).imp
      intro last last' more hlast
      exact hnext.trans hlast
    | _ => exact Act.rehearses_fail _

/-- The live run calls for attention where it has created something, the dry run never. -/
theorem rehearses_escalate (hb : b.ReadsApart w) (report : RunReport) :
    Act.Rehearses w.Same (fun _ _ ↦ True)
      (fun last last' calls ↦ last' = last.rehearsal ∧ last.files = report.files ∧
        calls = if report.created = 0 then [] else
          [.requestChanges change r.comment, .ensureLabel change r.config.label])
      (r.escalate b change report) (r.escalate b change report.rehearsal) := by
  have hdry : r.escalate b change report.rehearsal = pure report.rehearsal := by
    rw [Reviewer.escalate, RunReport.rehearsal, if_pos rfl]
  rw [hdry]
  intro s s' _ v hv
  refine ⟨report.rehearsal, rfl, trivial, ?_⟩
  unfold Reviewer.escalate at hv ⊢
  split at hv
  next hnone =>
    obtain rfl := Except.ok.inj hv
    rw [if_pos hnone, if_pos hnone]
    exact ⟨rfl, rfl, rfl⟩
  next hsome =>
    rw [if_neg hsome, if_neg hsome]
    rcases hask : (b.requestChanges change r.comment).run s with ⟨_ | _, s₁, trace⟩
    · rw [Act.run_bind_error hask] at hv
      cases hv
    rw [Act.run_bind_ok hask] at hv ⊢
    rcases hlabel : (b.ensureLabel change r.config.label).run s₁ with ⟨_ | _, s₂, trace'⟩
    · rw [Act.run_bind_error hlabel] at hv
      cases hv
    rw [Act.run_bind_ok hlabel] at hv ⊢
    obtain rfl := Except.ok.inj hv
    have hasked := hb.requestChanges change r.comment s
    have hlabelled := hb.ensureLabel change r.config.label s₁
    rw [hask] at hasked
    rw [hlabel] at hlabelled
    refine ⟨rfl, rfl, ?_⟩
    rw [writesOf_append, writesOf_append, hasked, hlabelled]
    rfl

/-- The report of a dry run begins as the one of the live run does, without any drafts. -/
private theorem rehearses_emptyReport (change : Token) :
    Act.Rehearses (· = · : σ → σ → Prop) (· = ·)
      (fun report report' calls ↦ report' = report.rehearsal ∧ report.dryRun = false ∧
        report.drafts = [] ∧ report.created = 0 ∧ calls = [])
      (Act.ofExcept (Reviewer.emptyReport change false))
      (Act.ofExcept (Reviewer.emptyReport change true)) := by
  cases hlive : Reviewer.emptyReport change false with
  | error e => exact Act.rehearses_fail e
  | ok report =>
    have hdry : Reviewer.emptyReport change true = .ok report.rehearsal := by
      unfold Reviewer.emptyReport Record.make at hlive ⊢
      dsimp only at hlive ⊢
      cases hcheck : (Validation.int change).within (.field "change_id") with
      | error problems =>
        rw [hcheck] at hlive
        cases hlive
      | ok n =>
        rw [hcheck] at hlive
        rw [← Except.ok.inj hlive]
        rfl
    obtain ⟨n, rfl⟩ := Reviewer.eq_of_emptyReport hlive
    rw [hdry]
    exact Act.rehearses_pure ⟨rfl, rfl, rfl, rfl, rfl⟩

/-- A dry run rehearses the live run from the same state. -/
theorem rehearses_run (hb : b.ReadsApart w) (hholds : ∀ s, w.holds s) :
    Act.Rehearses (· = ·) (fun _ _ ↦ True)
      (fun last last' calls ↦ last' = last.rehearsal ∧
        calls = last.drafts.map (.create change) ++ r.attentionAfter change last.drafts)
      (r.run b change false) (r.run b change true) := by
  unfold Reviewer.run
  apply (rehearses_emptyReport change).bind
  rintro report _ _ ⟨rfl, hlive, hdrafts, hcreated, rfl⟩
  apply (Act.rehearses_self (hb.revisions change)).bind
  rintro revisions _ _ ⟨rfl, rfl⟩
  apply (Act.rehearses_self (hb.changedFiles change)).bind
  rintro files _ _ ⟨rfl, rfl⟩
  apply (Act.rehearses_self (hb.annotations change)).bind
  rintro annotations _ _ ⟨rfl, rfl⟩
  apply (Act.rehearses_self fun _ ↦ rfl).bind
  rintro _ _ _ ⟨rfl, rfl⟩
  have hsame (s s' : σ) (hs : s = s') : w.Same s s' := hs ▸ .refl (hholds s)
  apply ((hb.rehearses_reviewFiles files hlive).mono hsame).bind
  intro next next' calls hnext
  obtain rfl := hnext.rehearsal
  obtain ⟨ds, hds, rfl, hcount⟩ := hnext.drafts
  rw [hdrafts, List.nil_append] at hds
  rw [hcreated, Nat.zero_add] at hcount
  apply (hb.rehearses_escalate next).imp
  rintro last _ calls ⟨rfl, hfiles, rfl⟩
  have hlast : last.drafts = ds := by rw [← hds, RunReport.drafts, hfiles, RunReport.drafts]
  refine ⟨rfl, ?_⟩
  rw [hlast, Reviewer.attentionAfter, hcount]
  simp only [List.nil_append, List.length_eq_zero_iff]

end Backend.ReadsApart

/-! ### The backend in memory -/

namespace Memory

variable {m m₁ m₂ : Memory}

/-- What the backend in memory reads for the review of a file goes by the files, the rules, and the
calls before that only read. -/
def readings :
    Aspect Memory (List ChangedFile × List (String × String) × List FaultRule × List Call.Method)
    where
  holds _ := True
  view m := (m.files, m.diffs, m.rules, m.calls.filter (!·.writes))

/-- After a call the same is read, apart from the call itself where that only reads. -/
private theorem readings_view_after (reply : Reply) :
    readings.view (m.after reply) = (m.files, m.diffs, m.rules,
      if reply.call.writes then m.calls.filter (!·.writes)
      else reply.call.method :: m.calls.filter (!·.writes)) := by
  obtain ⟨call, answer⟩ := reply
  cases call with
  | create change d => cases answer <;> rfl
  | _ => rfl

private theorem follows_ask (call : Call) (hreads : call.writes = false)
    (hreply : ∀ m₁ m₂ : Memory, m₁.files = m₂.files → m₁.diffs = m₂.diffs →
      m₁.replyTo call = m₂.replyTo call) :
    readings.Follows (backend.ask call) [] where
  same m₁ m₂ hsame := by
    have hview := hsame.view
    simp only [readings, Prod.mk.injEq] at hview
    obtain ⟨hfiles, hdiffs, hrules, hcalls⟩ := hview
    have hmethod : (!call.method.writes) = true := by
      rw [call.writes_method, hreads]
      rfl
    have hkept (calls : List Call.Method) :
        (calls.filter (!·.writes)).count call.method = calls.count call.method :=
      List.count_filter hmethod
    have hcount : m₁.calls.count call.method = m₂.calls.count call.method := by
      rw [← hkept, hcalls, hkept]
    have hrefusal : m₁.refusal? [] call = m₂.refusal? [] call := by
      rw [refusal?, refusal?, hrules, List.map_nil, List.nil_append, List.nil_append, hcount]
    have hanswer : m₁.answerTo call = m₂.answerTo call := by
      rw [answerTo, answerTo, hrefusal, hreply m₁ m₂ hfiles hdiffs]
    rw [run_ask, run_ask, hanswer]
    refine ⟨⟨trivial, trivial, ?_⟩, .refl _, rfl, fun _ _ ↦ trivial⟩
    rw [readings_view_after, readings_view_after, hfiles, hdiffs, hrules, hcalls]
  writes m _ := by
    rw [run_ask]
    show [Event.called call].filterMap Event.write? = []
    rw [List.filterMap_cons_none, List.filterMap_nil]
    rw [Event.write?, hreads]
    rfl

private theorem writesOf_ask (m : Memory) (call : Call) :
    writesOf ((backend.ask call).run m).trace = if call.writes then [call] else [] := by
  rw [run_ask]
  cases call <;> rfl

/-- In memory reads do not depend on what was created before, whichever calls fail. -/
theorem readsApart_backend : backend.ReadsApart readings where
  revisions change m := writesOf_ask m (.revisions change)
  changedFiles change m := writesOf_ask m (.changedFiles change)
  annotations change m := writesOf_ask m (.annotations change)
  content path ref := follows_ask (.content path ref) rfl fun m₁ m₂ hfiles _ ↦
    congrFun (congrFun (read_congr hfiles) path) ref
  diff path revisions := follows_ask (.diff path revisions) rfl fun m₁ m₂ hfiles hdiffs ↦
    congrArg Except.ok (congrFun (diffOf_congr hfiles hdiffs) path)
  create change d m _ := by
    refine ⟨⟨trivial, trivial, ?_⟩, writesOf_ask m (.create change d)⟩
    have hrun := run_ask m (.create change d)
    rw [show (backend.create change d).run m = (backend.ask (.create change d)).run m from rfl,
      hrun, readings_view_after]
    rfl
  requestChanges change body m := writesOf_ask m (.requestChanges change body)
  ensureLabel change name m := writesOf_ask m (.ensureLabel change name)

/-- A dry run changes nothing: it makes no call that does, no pause, and leaves the annotations. -/
private theorem quiet_dryRun (r : Reviewer) (change : Token) (m : Memory) :
    writesOf ((r.run backend change true).run m).trace = [] ∧
      (∀ time, Event.slept time ∉ ((r.run backend change true).run m).trace) ∧
      ((r.run backend change true).run m).state.annotations = m.annotations := by
  obtain ⟨d, hd, hplay⟩ := r.exists_dialogue change true
  have hrun := hplay Memory backend
  rw [observed_backend] at hrun
  rw [hrun]
  have hreads := (hd.steps backend m).isRead
  obtain ⟨hplays, hseen⟩ := d.plays_steps backend m
  obtain ⟨hwrites, hpauses⟩ := quiet_of_isRead hseen hreads
  refine ⟨hwrites, hpauses, ?_⟩
  rw [eq_afterSteps hplays]
  exact annotations_of_isRead hreads

/-- A dry run creates nothing, calls for no attention, makes no pause and leaves the annotations as
they are. Where the live run from the same state ends with a report, the dry run ends with the same
report, apart from what was created; and the live run creates annotations for what the dry run
plans, in order, and then calls for attention where it has created any. -/
theorem dry_run_rehearses (r : Reviewer) (change : Token) (m : Memory) :
    let dry := (r.run backend change true).run m
    let live := (r.run backend change false).run m
    writesOf dry.trace = [] ∧ (∀ time, Event.slept time ∉ dry.trace) ∧
      dry.state.annotations = m.annotations ∧
      ∀ report, live.answer = .ok report →
        dry.answer = .ok report.rehearsal ∧
        writesOf live.trace = report.rehearsal.drafts.map (.create change) ++
          r.attentionAfter change report.rehearsal.drafts := by
  intro dry live
  obtain ⟨hwrites, hpauses, hannotations⟩ := quiet_dryRun r change m
  refine ⟨hwrites, hpauses, hannotations, fun report hreport ↦ ?_⟩
  obtain ⟨_, hdry, -, rfl, hlive⟩ :=
    readsApart_backend.rehearses_run (r := r) (fun _ ↦ trivial) m m rfl report hreport
  have hdrafts : report.rehearsal.drafts = report.drafts := by
    simp [RunReport.drafts, RunReport.rehearsal, List.flatMap_map]
  rw [hdrafts]
  exact ⟨hdry, hlive⟩

/-- A change that lists a file twice, to which it adds a route, and one whose diff is malformed. -/
def listedTwice : Memory where
  files := routeAdded.files ++ malformed.files
  diffs := malformed.diffs
  annotations := []
  author := "github-actions[bot]"
  rules := []
  calls := []

/-- The file that is listed twice is annotated twice, as the dry run says. -/
theorem dry_run_rehearses_listedTwice :
    ∃ report, ((Reviewer.ofDefaults.run backend (.int 7) false).run listedTwice).answer =
        .ok report ∧ report.files.length = 2 ∧ report.errors.length = 1 ∧ report.created = 2 ∧
      ((Reviewer.ofDefaults.run backend (.int 7) true).run listedTwice).answer =
        .ok report.rehearsal ∧
      writesOf ((Reviewer.ofDefaults.run backend (.int 7) false).run listedTwice).trace =
        report.rehearsal.drafts.map (.create (.int 7)) ++
          Reviewer.ofDefaults.attentionAfter (.int 7) report.rehearsal.drafts := by
  have hlive : (((Reviewer.ofDefaults.run backend (.int 7) false).run listedTwice).answer.map
      fun report ↦ (report.files.length, report.errors.length, report.created)).toOption =
        some (2, 1, 2) := by
    decide +kernel
  cases hanswer : ((Reviewer.ofDefaults.run backend (.int 7) false).run listedTwice).answer with
  | error e =>
    rw [hanswer] at hlive
    cases hlive
  | ok report =>
    rw [hanswer] at hlive
    obtain ⟨hfiles, herrors, hcreated⟩ : report.files.length = 2 ∧ report.errors.length = 1 ∧
        report.created = 2 := by
      simpa using Option.some.inj hlive
    obtain ⟨-, -, -, hdry⟩ := dry_run_rehearses Reviewer.ofDefaults (.int 7) listedTwice
    exact ⟨report, rfl, hfiles, herrors, hcreated, hdry report hanswer⟩

end Memory

end RouteWatch
