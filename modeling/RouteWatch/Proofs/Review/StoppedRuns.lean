import RouteWatch.Proofs.Review.Convergence
import RouteWatch.Proofs.Review.FailingFiles
import RouteWatch.Proofs.Review.MemoryReplies
import RouteWatch.Proofs.Review.Stops

/-!
# Runs that were stopped

Trouble that is fatal stops a run with the backend in memory at the call that meets it: what is
called until then is what a run calls that does not meet the trouble, and the annotations that
remain are those created until then. A diff that cannot be parsed is fatal in the same way after the
reads of its file, while content that is missing in the base revision never is.
-/

namespace RouteWatch.Memory

variable {m m' : Memory} {r : Reviewer} {change : Token} {dryRun : Bool}

/-- The revisions of the change. -/
def refs : Revisions := ⟨.text baseRef, .text headRef⟩

private theorem eq_refs {found : Revisions} (h : m.answerTo (.revisions change) = .ok found) :
    found = refs :=
  (Except.ok.inj (replyTo_of_answerTo h)).symm

/-! ### Runs and their steps -/

/-- What is seen of a run: its pauses and its calls. -/
def seen (m : Memory) (r : Reviewer) (change : Token) (dryRun : Bool) : List Event :=
  ((r.run backend change dryRun).run m).trace.filter Event.isStep

/-- Runs from all states are one dialogue. -/
private theorem exists_dialogue (r : Reviewer) (change : Token) (dryRun : Bool) :
    ∃ d : Dialogue RunReport, d.Fulfils (r.Logs change dryRun) ∧
      r.run backend change dryRun = d.play backend := by
  obtain ⟨d, hd, hplay⟩ := r.exists_dialogue change dryRun
  have hbackend := hplay Memory backend
  rw [observed_backend] at hbackend
  exact ⟨d, hd, hbackend⟩

/-- A run ends after a reply that stops it. -/
private theorem stops_of_logs {steps : List Step} {x : Except Failure RunReport}
    (hlogs : r.Logs change dryRun steps x) (hplays : backend.Plays m steps m') :
    r.Stops refs steps x := by
  apply hlogs.stops
  rintro found rest rfl
  have hanswer : Except.ok found = m.answerTo (.revisions change) := @answer_eq m m' [] _ _ hplays
  exact eq_refs hanswer.symm

/-- The call that is seen among the events of steps is that of a reply. -/
private theorem exists_heard {steps : List Step} {before after : List Event} {call : Call}
    (h : steps.map Step.event = before ++ .called call :: after) :
    ∃ pre reply post, steps = pre ++ .heard reply :: post ∧ pre.map Step.event = before ∧
      reply.call = call ∧ post.map Step.event = after := by
  obtain ⟨pre, rest, rfl, hpre, hrest⟩ := List.map_eq_append_iff.mp h
  obtain ⟨step, post, rfl, hstep, hpost⟩ := List.map_eq_cons_iff.mp hrest
  cases step with
  | slept time => cases hstep
  | heard reply => exact ⟨pre, reply, post, rfl, hpre, Event.called.inj hstep, hpost⟩

/-! ### Calls that fail -/

/-- The call reads a file's diff, or its content in the head revision. -/
def readsHead : Call → Prop
  | .diff _ _ => True
  | .content _ ref => ref = refs.head
  | _ => False

/-- Trouble with a call is fatal: the forge refuses the call, or the call reads a file and the run
is to stop at files that cannot be reviewed. -/
def Fatal (r : Reviewer) (call : Call) (t : Trouble) : Prop :=
  (∃ status, t.kind = .api status) ∨
    r.config.failFast = true ∧ t.concernsFile = true ∧ readsHead call

/-- Some other rules refuse the same ones of these calls, for the same trouble. -/
def RefusesAlike (m : Memory) (rules : List FaultRule) (calls : List Call) : Prop :=
  ∀ before call after, calls = before ++ call :: after →
    m.refusal? before call = { m with rules }.refusal? before call

/-- Fatal trouble stops a run. -/
private theorem stoppedBy_of_fatal {call : Call} {t : Trouble} (h : Fatal r call t) :
    r.StoppedBy refs (.trouble t) call := by
  have hstops : ¬r.Survives (.trouble t) := by
    rintro ⟨hslow, t', heq, hfile⟩
    obtain rfl := Failure.trouble.inj heq
    rcases h with ⟨status, hkind⟩ | ⟨hfast, -⟩
    · rw [Trouble.concernsFile, hkind] at hfile
      cases hfile
    · rw [hfast] at hslow
      cases hslow
  cases call with
  | diff path revisions => exact hstops
  | content path ref =>
    refine ⟨hstops, ?_⟩
    rintro rfl
    rcases h with ⟨status, hkind⟩ | ⟨-, -, hhead⟩
    · apply baseText_error
      rintro message file heq
      obtain rfl := Failure.trouble.inj heq
      cases hkind
    · have hne : refs.base ≠ refs.head := by decide
      exact absurd hhead hne
  | _ => trivial

/-- A run goes like one under other rules up to the first call that they do not refuse alike. -/
private theorem exists_steps_until {d : Dialogue RunReport} {rules : List FaultRule}
    {before after : List Event} {call : Call} {t : Trouble}
    (hseen : ((d.play backend).run { m with rules }).trace.filter Event.isStep =
      before ++ .called call :: after)
    (halike : m.RefusesAlike rules (callsOf before))
    (htrouble : m.trouble? (callsOf before) call = some t) :
    ∃ pre rest, pre.map Step.event = before ∧
      d.steps backend m = pre ++ .heard ⟨call, .error (.trouble t)⟩ :: rest := by
  obtain ⟨hplays, hevents⟩ := d.plays_steps backend { m with rules }
  obtain ⟨pre, reply, post, hsteps, rfl, rfl, -⟩ := exists_heard (hevents.symm.trans hseen)
  rw [hsteps] at hplays
  -- Up to the call both states answer alike, so that both runs hear the same.
  obtain ⟨n, hpre, -⟩ := hplays.of_append
  have hsame := plays_of_refusals hpre halike
  obtain ⟨rest, hown⟩ := Dialogue.exists_steps_eq hsteps hsame
  rw [eq_afterSteps hsame, run_ask, answerTo_afterSteps_of_trouble htrouble] at hown
  exact ⟨pre, rest, rfl, hown⟩

/-- Fatal trouble stops a run at the call that meets it, and nothing is called afterwards. -/
private theorem run_of_fatal {rules : List FaultRule} {before after : List Event} {call : Call}
    {t : Trouble} (hseen : { m with rules }.seen r change dryRun = before ++ .called call :: after)
    (halike : m.RefusesAlike rules (callsOf before))
    (htrouble : m.trouble? (callsOf before) call = some t) (hfatal : Fatal r call t) :
    ((r.run backend change dryRun).run m).answer =
        .error (Failure.raisedAt call (.trouble t)) ∧
      m.seen r change dryRun = before ++ [.called call] ∧
      ((r.run backend change dryRun).run m).state.annotations =
        (m.storeAll (draftsOf (callsOf before))).annotations := by
  obtain ⟨d, hd, hplay⟩ := exists_dialogue r change dryRun
  rw [seen, hplay] at hseen ⊢
  obtain ⟨pre, rest, rfl, hsteps⟩ := exists_steps_until hseen halike htrouble
  obtain ⟨hplays, hevents⟩ := d.plays_steps backend m
  have hstops := stops_of_logs (hd.steps backend m) hplays
  rw [hsteps] at hstops hplays hevents
  obtain ⟨rfl, hanswer⟩ := hstops.eq_of_stoppedBy (stoppedBy_of_fatal hfatal)
  refine ⟨hanswer, ?_, ?_⟩
  · rw [hevents, List.map_append]
    rfl
  · rw [eq_afterSteps hplays, afterSteps, List.foldl_append]
    refine Eq.trans ?_ (annotations_afterSteps hstops.created)
    exact annotations_after_error (m.afterSteps pre) call (.trouble t)

/-! ### Diffs that cannot be parsed -/

/-- After these calls a file can be read, but for its content in the base revision, which may be
missing. -/
structure Readable (m : Memory) (before : List Call) (path : String) : Prop where
  diff : m.trouble? before (.diff path refs) = none
  head : m.trouble? (before ++ [.diff path refs]) (.content path refs.head) = none
  base : ∀ t, m.trouble? (before ++ [.diff path refs, .content path refs.head])
    (.content path refs.base) = some t → t.kind = .read

/-- The contents of a file that a run reads. -/
def contentCalls (r : Reviewer) (path : String) : List Call :=
  .content path refs.head :: if r.config.checkRemoved then [.content path refs.base] else []

/-- Trouble with a diff names its file. -/
private theorem raisedFor_of_readDiff {text path : String} {t : Trouble}
    (h : Reviewer.readDiff text path = .error (.trouble t)) :
    Failure.raisedFor path (.trouble t) = .trouble t := by
  unfold Reviewer.readDiff at h
  split at h
  next => cases h
  next => cases h
  next fault _ =>
    obtain rfl := Failure.trouble.inj (Except.error.inj h)
    have hknown : ((some path).filter (· ≠ "")).getD path = path := by
      cases hpath : decide (path ≠ "") <;> simp [Option.filter, hpath]
    simp only [Failure.raisedFor, Trouble.raisedFor, Trouble.knownPath?, hknown]
    rfl

/-- Content in the base revision that is read, or is missing, stands for some text. -/
private theorem exists_baseText {pre post : List Step} {path : String} {x : Except Failure String}
    (h : backend.Plays m (pre ++ .heard ⟨.content path refs.base, x⟩ :: post) m')
    (hbase : ∀ t, m.trouble? (callsOf (pre.map Step.event)) (.content path refs.base) = some t →
      t.kind = .read) : ∃ text, baseText x = .ok text := by
  cases htrouble : m.trouble? (callsOf (pre.map Step.event)) (.content path refs.base) with
  | none =>
    obtain ⟨text, rfl, -⟩ := exists_answer_eq h htrouble
    exact ⟨text, rfl⟩
  | some t =>
    obtain rfl : x = .error (.trouble t) :=
      (answer_eq h).trans (answerTo_afterSteps_of_trouble htrouble)
    obtain ⟨kind, message, file⟩ := t
    obtain rfl := hbase _ htrouble
    exact ⟨"", rfl⟩

/-- A diff that cannot be parsed stops a run after the reads of its file. -/
private theorem run_of_malformed {before after : List Event} {path : String} {t : Trouble}
    (hdiff : Reviewer.readDiff (m.diffOf path) path = .error (.trouble t))
    (hfast : r.config.failFast = true)
    (hseen : m.seen r change dryRun = before ++ .called (.diff path refs) :: after)
    (hreadable : m.Readable (callsOf before) path) :
    ((r.run backend change dryRun).run m).answer = .error (.trouble t) ∧
      after = (contentCalls r path).map .called := by
  obtain ⟨d, hd, hplay⟩ := exists_dialogue r change dryRun
  rw [seen, hplay] at hseen
  rw [hplay]
  obtain ⟨hplays, hevents⟩ := d.plays_steps backend m
  have hstops := stops_of_logs (hd.steps backend m) hplays
  obtain ⟨pre, ⟨call, answer⟩, post, hsteps, rfl, rfl, rfl⟩ :=
    exists_heard (hevents.symm.trans hseen)
  rw [hsteps] at hplays hstops
  obtain ⟨text, rfl, htext⟩ := exists_answer_eq hplays hreadable.diff
  obtain rfl : m.diffOf path = text := by
    rw [← diffOf_afterSteps m pre]
    exact Except.ok.inj htext
  obtain ⟨reading, existing, e, hfits, hreads, hreview, hanswer⟩ :=
    hstops.exists_reading hfast hdiff
  have hcalls (steps : List Step) : callsOf ((pre ++ steps).map Step.event) =
      callsOf (pre.map Step.event) ++ callsOf (steps.map Step.event) := by
    rw [List.map_append, callsOf_append]
  -- The head revision can be read, so that the file is read to the end.
  cases reading with
  | noDiff e => cases hreads
  | noContent text e =>
    obtain ⟨-, rfl⟩ := List.cons.inj hreads
    rw [List.append_cons] at hplays
    obtain ⟨content, hcontent, -⟩ := exists_answer_eq hplays ((hcalls _).symm ▸ hreadable.head)
    cases hcontent
  | read text content base =>
    obtain ⟨htext, rfl⟩ := List.cons.inj hreads
    cases htext
    have hbase : ∀ x ∈ base, ∃ text, baseText x = .ok text := by
      rintro x rfl
      rw [List.append_cons, List.append_cons, List.append_assoc pre] at hplays
      exact exists_baseText hplays ((hcalls _).symm ▸ hreadable.base)
    rw [Reading.review_of_readDiff hdiff content hbase] at hreview
    obtain rfl := Except.error.inj hreview
    refine ⟨hanswer.trans (congrArg Except.error (raisedFor_of_readDiff hdiff)), ?_⟩
    have hremoved : base.isSome = r.config.checkRemoved := hfits
    rw [contentCalls, ← hremoved]
    cases base <;> rfl

/-- What is heard of a diff is that of the file. -/
private theorem eq_diffOf {steps : List Step} {path text : String} {revisions : Revisions}
    (h : backend.Plays m steps m')
    (hmem : Step.heard ⟨.diff path revisions, .ok text⟩ ∈ steps) : text = m.diffOf path := by
  obtain ⟨pre, post, rfl⟩ := List.append_of_mem hmem
  have hanswer : Except.ok text = (m.afterSteps pre).answerTo (.diff path revisions) := answer_eq h
  have hreply := Except.ok.inj (replyTo_of_answerTo hanswer.symm)
  exact hreply.symm.trans (diffOf_afterSteps m pre path)

/-- A run creates no annotation for a file whose diff cannot be parsed. -/
private theorem path_ne_of_created {path : String} {e : Failure}
    (hdiff : Reviewer.readDiff (m.diffOf path) path = .error e) {change' : Token} {d : Draft}
    (hcreated : .called (.create change' d) ∈ m.seen r change dryRun) : d.path ≠ path := by
  rintro rfl
  obtain ⟨dialogue, hd, hplay⟩ := exists_dialogue r change dryRun
  obtain ⟨hplays, hevents⟩ := dialogue.plays_steps backend m
  rw [seen, hplay, hevents] at hcreated
  obtain ⟨step, hstep, hevent⟩ := List.mem_map.mp hcreated
  cases step with
  | slept time => cases hevent
  | heard reply =>
    obtain ⟨call, answer⟩ := reply
    obtain rfl : call = .create change' d := Event.called.inj hevent
    obtain ⟨revisions, text, diff, hheard, hread⟩ := (hd.steps backend m).grounded _ _ _ hstep
    rw [eq_diffOf hplays hheard, hdiff] at hread
    cases hread

/-! ### Content that is missing in the base revision -/

/-- Content that cannot be read is taken as empty. -/
def orEmpty (o : Outcome Memory String) : Outcome Memory String :=
  match o.answer with
  | .error (.trouble ⟨.read, _, _⟩) => { o with answer := .ok "" }
  | _ => o

/-- The backend, which gives the empty text for content that cannot be read in the base revision. -/
def emptyBases : Backend Memory :=
  { backend with
    content path ref := fun m ↦
      let o := (backend.content path ref).run m
      if ref = refs.base then orEmpty o else o }

private theorem orEmpty_orEmpty (o : Outcome Memory String) : orEmpty (orEmpty o) = orEmpty o := by
  rcases o with ⟨e | text, m, trace⟩
  · cases e with
    | trouble t =>
      obtain ⟨kind, message, file⟩ := t
      cases kind <;> rfl
    | _ => rfl
  · rfl

private theorem readBase_eq (b : Backend Memory) (path : String) :
    Reviewer.readBase b path refs = fun m ↦ orEmpty (b.content path refs.base m) := by
  funext m
  unfold Reviewer.readBase Act.recover orEmpty
  rcases b.content path refs.base m with ⟨e | text, m', trace⟩
  · cases e with
    | trouble t =>
      obtain ⟨kind, message, file⟩ := t
      cases kind <;> exact congrArg (Outcome.mk _ _) (List.append_nil trace)
    | _ => exact congrArg (Outcome.mk _ _) (List.append_nil trace)
  · rfl

private theorem readBase_emptyBases (path : String) :
    Reviewer.readBase emptyBases path refs = Reviewer.readBase backend path refs := by
  rw [readBase_eq, readBase_eq]
  funext m
  exact orEmpty_orEmpty (backend.content path refs.base m)

private theorem previewFrom_emptyBases (r : Reviewer) (existing : List Annotation) (path : String) :
    r.previewFrom emptyBases refs existing path = r.previewFrom backend refs existing path := by
  have hhead : emptyBases.content path refs.head = backend.content path refs.head := rfl
  rw [Reviewer.previewFrom, Reviewer.previewFrom, hhead, readBase_emptyBases]
  rfl

private theorem createAll_emptyBases (change : Token) (delay : Seconds) (previous : Option String)
    (ds : List Draft) : createAll emptyBases change delay previous ds =
      createAll backend change delay previous ds := by
  induction ds generalizing previous with
  | nil => rfl
  | cons d ds ih =>
    unfold createAll
    rw [ih]
    rfl

private theorem reviewFiles_emptyBases (r : Reviewer) (change : Token) (existing : List Annotation)
    (report : RunReport) (files : List Token) :
    r.reviewFiles emptyBases change refs existing report files =
      r.reviewFiles backend change refs existing report files := by
  have hfile (report : RunReport) (path : String) :
      r.reviewFile emptyBases change refs existing report path =
        r.reviewFile backend change refs existing report path := by
    unfold Reviewer.reviewFile Reviewer.annotate
    simp only [previewFrom_emptyBases, createAll_emptyBases]
  induction files generalizing report with
  | nil => rfl
  | cons file files ih =>
    cases file with
    | text path =>
      unfold Reviewer.reviewFiles
      rw [hfile, funext ih]
    | _ => rfl

/-- What follows on the revisions need only be known for those of the change. -/
private theorem revisions_bind {α : Type} {f g : Revisions → Act Memory α} (h : f refs = g refs) :
    backend.revisions change >>= f = backend.revisions change >>= g := by
  funext m
  have hrun : (backend.revisions change).run m = _ := run_ask m (.revisions change)
  cases hanswer : m.answerTo (.revisions change) with
  | error e =>
    rw [hanswer] at hrun
    exact (Act.run_bind_error hrun f).trans (Act.run_bind_error hrun g).symm
  | ok found =>
    rw [hanswer] at hrun
    obtain rfl := eq_refs hanswer
    refine (Act.run_bind_ok hrun f).trans ?_
    rw [h]
    exact (Act.run_bind_ok hrun g).symm

/-- Content that is missing in the base revision stops no run. -/
private theorem run_emptyBases (r : Reviewer) (change : Token) (dryRun : Bool) :
    r.run backend change dryRun = r.run emptyBases change dryRun := by
  unfold Reviewer.run
  congr 1
  funext report
  apply revisions_bind
  simp only [reviewFiles_emptyBases]
  rfl

/-! ### What stops a run -/

/-- Fatal trouble stops a run at the call that meets it: until then the run calls what one does that
does not meet the trouble, and the annotations that remain are those created until then. A diff that
cannot be parsed stops a run after the reads of its file, and nothing is created for the file.
Content that is missing in the base revision is as good as empty. -/
theorem fatal_trouble_stops_run (r : Reviewer) (change : Token) (dryRun : Bool) (m : Memory) :
    (∀ rules before call after t,
      { m with rules }.seen r change dryRun = before ++ .called call :: after →
      m.RefusesAlike rules (callsOf before) → m.trouble? (callsOf before) call = some t →
      Fatal r call t →
      ((r.run backend change dryRun).run m).answer =
          .error (Failure.raisedAt call (.trouble t)) ∧
        m.seen r change dryRun = before ++ [.called call] ∧
        ((r.run backend change dryRun).run m).state.annotations =
          (m.storeAll (draftsOf (callsOf before))).annotations) ∧
    (∀ path t, Reviewer.readDiff (m.diffOf path) path = .error (.trouble t) →
      (∀ change' d, .called (.create change' d) ∈ m.seen r change dryRun → d.path ≠ path) ∧
      ∀ before after, r.config.failFast = true →
        m.seen r change dryRun = before ++ .called (.diff path refs) :: after →
        m.Readable (callsOf before) path →
        ((r.run backend change dryRun).run m).answer = .error (.trouble t) ∧
          after = (contentCalls r path).map .called) ∧
    r.run backend change dryRun = r.run emptyBases change dryRun := by
  refine ⟨?_, fun path t hdiff ↦ ⟨?_, ?_⟩, run_emptyBases r change dryRun⟩
  · intro rules before call after t hseen halike htrouble hfatal
    exact run_of_fatal hseen halike htrouble hfatal
  · intro change' d hcreated
    exact path_ne_of_created hdiff hcreated
  · intro before after hfast hseen hreadable
    exact run_of_malformed hdiff hfast hseen hreadable

/-- The reviewer with the default settings, but that it stops at files that cannot be reviewed. -/
def failingFast : Reviewer := { Reviewer.ofDefaults with config := { failFast := true } }

/-- The change that adds a route, whose annotation is refused. -/
def refused : Memory :=
  { routeAdded with rules := [⟨.create, none, ⟨.api (some 403), "refused", none⟩⟩] }

/-- A run is stopped by an annotation that is refused, and another one by a malformed diff. -/
theorem fatal_trouble_stops_run_refused :
    ((Reviewer.ofDefaults.run backend (.int 7) false).run refused).answer =
        .error (.trouble ⟨.api (some 403), "refused", none⟩) ∧
      (∃ d, refused.seen Reviewer.ofDefaults (.int 7) false =
        [.called (.revisions (.int 7)), .called (.changedFiles (.int 7)),
          .called (.annotations (.int 7)), .called (.diff "service/routes/x.js" refs),
          .called (.content "service/routes/x.js" refs.head), .called (.create (.int 7) d)]) ∧
      ((Reviewer.ofDefaults.run backend (.int 7) false).run refused).state.annotations = [] ∧
      ∃ t, ((failingFast.run backend (.int 7) false).run malformed).answer = .error (.trouble t) ∧
        t.kind = .parse := by
  let before : List Event := [.called (.revisions (.int 7)), .called (.changedFiles (.int 7)),
    .called (.annotations (.int 7)), .called (.diff "service/routes/x.js" refs),
    .called (.content "service/routes/x.js" refs.head)]
  let d : Draft := ⟨"service/routes/x.js", 2, Reviewer.ofDefaults.comment, .right, some 1⟩
  have hclean : { refused with rules := [] }.seen Reviewer.ofDefaults (.int 7) false =
      before ++ .called (.create (.int 7) d) ::
        [.called (.requestChanges (.int 7) Reviewer.ofDefaults.comment),
          .called (.ensureLabel (.int 7) "route-change")] := by
    decide +kernel
  have halike : refused.RefusesAlike [] (callsOf before) := by
    intro earlier call later hcalls
    have hmem : call ∈ callsOf before := by
      rw [hcalls]
      exact List.mem_append_right _ (List.mem_cons_self ..)
    simp only [before, callsOf, List.filterMap_cons, List.filterMap_nil, List.mem_cons,
      List.not_mem_nil, or_false] at hmem
    rcases hmem with rfl | rfl | rfl | rfl | rfl <;> rfl
  obtain ⟨hanswer, hseen, hannotations⟩ :=
    (fatal_trouble_stops_run Reviewer.ofDefaults (.int 7) false refused).1 [] before
      (.create (.int 7) d) _ ⟨.api (some 403), "refused", none⟩ hclean halike rfl
      (.inl ⟨some 403, rfl⟩)
  obtain ⟨t, hdiff, hparse⟩ : ∃ t, Reviewer.readDiff (malformed.diffOf "service/routes/bad.js")
      "service/routes/bad.js" = .error (.trouble t) ∧ t.kind = .parse := ⟨_, rfl, rfl⟩
  have hmalformed : malformed.seen failingFast (.int 7) false =
      [.called (.revisions (.int 7)), .called (.changedFiles (.int 7)),
        .called (.annotations (.int 7))] ++ .called (.diff "service/routes/bad.js" refs) ::
          [.called (.content "service/routes/bad.js" refs.head)] := by
    decide +kernel
  have hstopped := ((fatal_trouble_stops_run failingFast (.int 7) false malformed).2.1 _ t hdiff).2
    _ _ rfl hmalformed ⟨rfl, rfl, fun _ h ↦ by cases h⟩
  exact ⟨hanswer, ⟨d, hseen⟩, hannotations, t, hstopped.1, hparse⟩

end RouteWatch.Memory
