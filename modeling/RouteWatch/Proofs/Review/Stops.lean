import RouteWatch.Proofs.Review.Log

/-!
# What stops a run

A run is stopped by the first call that fails, unless the call reads a file that the run can do
without. Where it is to stop at files that cannot be reviewed, a diff that cannot be parsed stops it
too, once the file has been read. Nothing else is called then.
-/

namespace RouteWatch

variable {α β : Type} {r : Reviewer} {change : Token} {revisions : Revisions}
  {existing : List Annotation} {path : String} {dryRun : Bool}

/-! ### Calls that stop a run -/

/-- The file that a call reads. -/
def Call.file? : Call → Option String
  | .diff path _ => some path
  | .content path _ => some path
  | _ => none

/-- A failure as a run raises it when a call fails. -/
def Failure.raisedAt (call : Call) (e : Failure) : Failure :=
  match call.file? with
  | some path => e.raisedFor path
  | none => e

/-- A call that fails so stops a run. -/
def Reviewer.StoppedBy (r : Reviewer) (revisions : Revisions) (e : Failure) : Call → Prop
  | .diff _ _ => ¬r.Survives e
  | .content _ ref => ¬r.Survives e ∧ (ref = revisions.base → baseText (.error e) = .error e)
  | _ => True

/-- A run is stopped by this reply. -/
inductive Reviewer.Stopping (r : Reviewer) (revisions : Revisions) : Reply → Prop where
  | failed {call : Call} {e : Failure} (h : r.StoppedBy revisions e call) :
      r.Stopping revisions ⟨call, .error e⟩
  | malformed {path text : String} {e : Failure} (hfast : r.config.failFast = true)
      (h : Reviewer.readDiff text path = .error e) :
      r.Stopping revisions ⟨.diff path revisions, .ok text⟩

/-- What is still done after a reply that stops the run, and how the run fails: nothing after a call
that failed, and after a diff that cannot be parsed the other reads of its file. -/
inductive Reviewer.Ending (r : Reviewer) (revisions : Revisions) :
    Reply → List Step → Failure → Prop where
  | failed (call : Call) (e : Failure) : r.Ending revisions ⟨call, .error e⟩ [] (e.raisedAt call)
  | malformed {path text : String} {reading : Reading} {existing : List Annotation} {e : Failure}
      {rest : List Step} (hfits : reading.Fits r)
      (hsteps : reading.steps path revisions = .heard ⟨.diff path revisions, .ok text⟩ :: rest)
      (hreview : reading.review r path existing = .error e) :
      r.Ending revisions ⟨.diff path revisions, .ok text⟩ rest (e.raisedFor path)

/-- Each reply in the steps that stops the run is one after which it ends. -/
def Reviewer.Stops (r : Reviewer) (revisions : Revisions) : List Step → Except Failure α → Prop
  | [], _ => True
  | .slept _ :: rest, x => r.Stops revisions rest x
  | .heard reply :: rest, x =>
    (r.Stopping revisions reply → ∃ e, x = .error e ∧ r.Ending revisions reply rest e) ∧
      r.Stops revisions rest x

namespace Reviewer.Stops

theorem map {steps : List Step} {x : Except Failure α} (h : r.Stops revisions steps x)
    (f : α → β) : r.Stops revisions steps (x.map f) := by
  induction steps with
  | nil => trivial
  | cons step steps ih =>
    cases step with
    | slept time => exact ih h
    | heard reply =>
      refine ⟨fun hreply ↦ ?_, ih h.2⟩
      obtain ⟨e, rfl, hends⟩ := h.1 hreply
      exact ⟨e, rfl, hends⟩

theorem append {steps rest : List Step} {v : α} {x : Except Failure β}
    (h : r.Stops revisions steps (.ok v)) (hrest : r.Stops revisions rest x) :
    r.Stops revisions (steps ++ rest) x := by
  induction steps with
  | nil => exact hrest
  | cons step steps ih =>
    cases step with
    | slept time => exact ih h
    | heard reply =>
      refine ⟨fun hreply ↦ ?_, ih h.2⟩
      obtain ⟨e, he, -⟩ := h.1 hreply
      cases he

/-- A call that reads no file and succeeds stops no run. -/
theorem heard {call : Call} {answer : call.Answer} {rest : List Step} {x : Except Failure α}
    (hfile : call.file? = none) (h : r.Stops revisions rest x) :
    r.Stops revisions (.heard ⟨call, .ok answer⟩ :: rest) x := by
  refine ⟨fun hreply ↦ ?_, h⟩
  cases hreply with
  | malformed => cases hfile

/-- A call that reads no file and fails is the last one. -/
theorem failed {call : Call} (hfile : call.file? = none) (e : Failure) :
    r.Stops revisions [.heard ⟨call, .error e⟩] (.error e : Except Failure α) := by
  refine ⟨fun _ ↦ ⟨e, rfl, ?_⟩, trivial⟩
  have hends : r.Ending revisions ⟨call, .error e⟩ [] (e.raisedAt call) := .failed call e
  rwa [Failure.raisedAt, hfile] at hends

/-- After a reply that stops it a run ends. -/
theorem exists_ending {pre post : List Step} {reply : Reply} {x : Except Failure α}
    (h : r.Stops revisions (pre ++ .heard reply :: post) x)
    (hreply : r.Stopping revisions reply) :
    ∃ e, x = .error e ∧ r.Ending revisions reply post e := by
  induction pre with
  | nil => exact h.1 hreply
  | cons step pre ih =>
    cases step with
    | slept time => exact ih h
    | heard reply => exact ih h.2

/-- A run ends with a call that stops it. -/
theorem eq_of_stoppedBy {pre post : List Step} {call : Call} {e : Failure} {x : Except Failure α}
    (h : r.Stops revisions (pre ++ .heard ⟨call, .error e⟩ :: post) x)
    (hcall : r.StoppedBy revisions e call) : post = [] ∧ x = .error (e.raisedAt call) := by
  obtain ⟨e', rfl, hends⟩ := h.exists_ending (.failed hcall)
  generalize hreply : Reply.mk call (.error e) = reply at hends
  cases hends with
  | failed =>
    cases hreply
    exact ⟨rfl, rfl⟩
  | malformed => cases hreply

/-- No creation fails before a later call. -/
theorem created {pre post : List Step} {reply : Reply} {x : Except Failure α}
    (h : r.Stops revisions (pre ++ .heard reply :: post) x) (change : Token) (d : Draft)
    (e : Failure) : Step.heard ⟨.create change d, .error e⟩ ∉ pre := by
  intro hmem
  obtain ⟨first, others, rfl⟩ := List.append_of_mem hmem
  rw [List.append_assoc] at h
  have hlast := (h.eq_of_stoppedBy trivial).1
  exact List.append_ne_nil_of_right_ne_nil _ (List.cons_ne_nil _ _) hlast

/-- A run that is to stop at files that cannot be reviewed ends with the reads of one whose diff
cannot be parsed. -/
theorem exists_reading {pre post : List Step} {path text : String} {e : Failure}
    {x : Except Failure α}
    (h : r.Stops revisions (pre ++ .heard ⟨.diff path revisions, .ok text⟩ :: post) x)
    (hfast : r.config.failFast = true) (hdiff : Reviewer.readDiff text path = .error e) :
    ∃ (reading : Reading) (existing : List Annotation) (e : Failure), reading.Fits r ∧
      reading.steps path revisions = .heard ⟨.diff path revisions, .ok text⟩ :: post ∧
      reading.review r path existing = .error e ∧ x = .error (e.raisedFor path) := by
  obtain ⟨e', rfl, hends⟩ := h.exists_ending (.malformed hfast hdiff)
  generalize hreply : Reply.mk (.diff path revisions) (.ok text) = reply at hends
  cases hends with
  | failed => cases hreply
  | malformed hfits hsteps hreview =>
    cases hreply
    exact ⟨_, _, _, hfits, hsteps, hreview, rfl⟩

end Reviewer.Stops

/-! ### Runs, part by part -/

theorem Reviewer.not_survives (h : r.config.failFast = true) (e : Failure) : ¬r.Survives e := by
  rintro ⟨hslow, -⟩
  rw [h] at hslow
  cases hslow

/-- A diff that cannot be parsed is what a review fails for. -/
theorem preview_of_readDiff {text : String} {e : Failure}
    (h : Reviewer.readDiff text path = .error e) (content base : Option String) :
    r.preview path content text existing base = .error e := by
  unfold Reviewer.preview
  rw [h]
  rfl

theorem Reading.review_of_readDiff {text : String} {e : Failure}
    (h : Reviewer.readDiff text path = .error e) (content : String)
    {base : Option (Except Failure String)} (hbase : ∀ x ∈ base, ∃ text, baseText x = .ok text) :
    (Reading.read text content base).review r path existing = .error e := by
  cases base with
  | none => exact preview_of_readDiff h (some content) none
  | some x =>
    obtain ⟨base, hbase⟩ := hbase x rfl
    rw [Reading.review_base, hbase]
    exact preview_of_readDiff h (some content) (some base)

/-- A file whose diff was heard and cannot be parsed has no review. -/
private theorem Reading.exists_error {reading : Reading} {text : String} {rest : List Step}
    {e : Failure}
    (hsteps : reading.steps path revisions = .heard ⟨.diff path revisions, .ok text⟩ :: rest)
    (h : Reviewer.readDiff text path = .error e) :
    ∃ e, reading.review r path existing = .error e := by
  cases reading with
  | noDiff e => cases hsteps
  | noContent diff e => exact ⟨e, rfl⟩
  | read diff content base =>
    obtain ⟨hdiff, -⟩ := List.cons.inj hsteps
    cases hdiff
    cases base with
    | none => exact ⟨e, preview_of_readDiff h (some content) none⟩
    | some x =>
      rw [Reading.review_base]
      cases baseText x with
      | error e => exact ⟨e, rfl⟩
      | ok base => exact ⟨e, preview_of_readDiff h (some content) (some base)⟩

/-- The reads of a file stop a run where its review fails and the run does not survive that. -/
theorem Reading.stops {reading : Reading} {x : Except Failure α} (hfits : reading.Fits r)
    (hx : ∀ e, reading.review r path existing = .error e → ¬r.Survives e →
      x = .error (e.raisedFor path)) :
    r.Stops revisions (reading.steps path revisions) x := by
  -- A malformed diff stops the run, whichever failure of the file is raised for it.
  have hdiff {text : String} {rest : List Step}
      (hsteps : reading.steps path revisions = .heard ⟨.diff path revisions, .ok text⟩ :: rest)
      (h : r.Stopping revisions ⟨.diff path revisions, .ok text⟩) :
      ∃ e, x = .error e ∧ r.Ending revisions ⟨.diff path revisions, .ok text⟩ rest e := by
    cases h with
    | malformed hfast hread =>
      obtain ⟨e, he⟩ := Reading.exists_error hsteps hread
      exact ⟨_, hx e he (Reviewer.not_survives hfast e), .malformed hfits hsteps he⟩
  cases reading with
  | noDiff e =>
    refine ⟨fun h ↦ ?_, trivial⟩
    cases h with
    | failed h => exact ⟨_, hx e rfl h, .failed (.diff path revisions) e⟩
  | noContent diff e =>
    refine ⟨hdiff rfl, fun h ↦ ?_, trivial⟩
    cases h with
    | failed h => exact ⟨_, hx e rfl h.1, .failed (.content path revisions.head) e⟩
  | read diff content base =>
    refine ⟨hdiff rfl, (fun h ↦ by cases h), ?_⟩
    cases base with
    | none => trivial
    | some base =>
      refine ⟨fun h ↦ ?_, trivial⟩
      cases base with
      | ok text => cases h
      | error e =>
        cases h with
        | failed h =>
          refine ⟨_, hx e ?_ h.1, .failed (.content path revisions.base) e⟩
          rw [Reading.review_base, h.2 rfl]
          rfl

/-- Creations stop a run at the first one that fails. -/
theorem Creates.stops {delay : Seconds} {previous : Option String} {ds : List Draft}
    {steps : List Step} {x : Except Failure (List Token)}
    (h : Creates change delay previous ds steps x) : r.Stops revisions steps x := by
  have hpause (previous : Option String) (d : Draft) {steps : List Step}
      {x : Except Failure (List Token)} (h : r.Stops revisions steps x) :
      r.Stops revisions (pauseBefore delay previous d ++ steps) x := by
    unfold pauseBefore
    split <;> exact h
  induction h with
  | nil => trivial
  | cons _ ih => exact hpause _ _ (.heard rfl (ih.map _))
  | stop previous d ds e => exact hpause _ _ (.failed rfl e)

theorem Reviewer.Visits.stops {report : RunReport} {steps : List Step}
    {x : Except Failure RunReport} (h : r.Visits change revisions existing report path steps x) :
    r.Stops revisions steps x := by
  cases h with
  | skipped => trivial
  | left hroute hfits hreview hfile hfast =>
    apply Reading.stops hfits
    intro e he hstops
    rw [hreview] at he
    obtain rfl := Except.error.inj he
    exact absurd ⟨hfast, _, rfl, hfile⟩ hstops
  | stopped hroute hfits hreview hstops =>
    apply Reading.stops hfits
    intro e he _
    rw [hreview] at he
    obtain rfl := Except.error.inj he
    rfl
  | @reviewed reading file steps x hroute hfits hreview hannotates =>
    have hreads : r.Stops revisions (reading.steps path revisions) (.ok file) := by
      apply Reading.stops hfits
      intro e he _
      rw [hreview] at he
      cases he
    apply hreads.append
    unfold Reviewer.Annotates at hannotates
    split at hannotates
    next =>
      obtain ⟨rfl, -⟩ := hannotates
      trivial
    next => exact hannotates.stops.map _

theorem Reviewer.VisitsAll.stops {report : RunReport} {files : List Token} {steps : List Step}
    {x : Except Failure RunReport}
    (h : r.VisitsAll change revisions existing report files steps x) :
    r.Stops revisions steps x := by
  induction h with
  | nil => trivial
  | cons hfirst _ ih => exact hfirst.stops.append ih
  | stopped hfirst => exact hfirst.stops
  | misfit => trivial

theorem Reviewer.Escalates.stops {report : RunReport} {steps : List Step}
    {x : Except Failure RunReport} (h : r.Escalates change report steps x) :
    r.Stops revisions steps x := by
  cases h with
  | unneeded => trivial
  | refused _ e => exact .failed rfl e
  | unlabelled _ e => exact .heard rfl (.failed rfl e)
  | done => exact .heard rfl (.heard rfl trivial)

/-- A run ends after a reply that stops it. -/
theorem Reviewer.Logs.stops {steps : List Step} {x : Except Failure RunReport}
    (h : r.Logs change dryRun steps x)
    (hrevisions : ∀ found rest, steps = .heard ⟨.revisions change, .ok found⟩ :: rest →
      found = revisions) : r.Stops revisions steps x := by
  have hopening (files : List Token) (annotations : List Annotation) {steps : List Step}
      {x : Except Failure RunReport} (h : r.Stops revisions steps x) :
      r.Stops revisions (opening change revisions files annotations ++ steps) x :=
    .heard rfl (.heard rfl (.heard rfl h))
  cases h with
  | invalid => trivial
  | noRevisions e => exact .failed rfl e
  | noFiles _ e => exact .heard rfl (.failed rfl e)
  | noAnnotations _ _ e => exact .heard rfl (.heard rfl (.failed rfl e))
  | stopped _ hvisits =>
    obtain rfl := hrevisions _ _ rfl
    exact hopening _ _ hvisits.stops
  | reviewed _ hvisits hescalates =>
    obtain rfl := hrevisions _ _ rfl
    exact hopening _ _ (hvisits.stops.append hescalates.stops)

/-! ### Creations -/

/-- What annotations are created for has a diff that could be parsed. -/
def Grounded (steps : List Step) : Prop :=
  ∀ change d x, Step.heard ⟨.create change d, x⟩ ∈ steps →
    ∃ revisions text diff, Step.heard ⟨.diff d.path revisions, .ok text⟩ ∈ steps ∧
      Reviewer.readDiff text d.path = .ok diff

theorem Grounded.append {steps rest : List Step} (h : Grounded steps) (hrest : Grounded rest) :
    Grounded (steps ++ rest) := by
  intro change d x hmem
  rcases List.mem_append.mp hmem with hmem | hmem
  · obtain ⟨revisions, text, diff, hheard, hdiff⟩ := h change d x hmem
    exact ⟨revisions, text, diff, List.mem_append_left rest hheard, hdiff⟩
  · obtain ⟨revisions, text, diff, hheard, hdiff⟩ := hrest change d x hmem
    exact ⟨revisions, text, diff, List.mem_append_right steps hheard, hdiff⟩

theorem Creates.mem_of_heard {delay : Seconds} {previous : Option String} {ds : List Draft}
    {steps : List Step} {x : Except Failure (List Token)}
    (h : Creates change delay previous ds steps x) {change' : Token} {d : Draft}
    {y : Except Failure Token} (hmem : Step.heard ⟨.create change' d, y⟩ ∈ steps) : d ∈ ds := by
  have hpause {previous : Option String} {d' : Draft} {rest : List Step}
      (hmem : Step.heard ⟨.create change' d, y⟩ ∈ pauseBefore delay previous d' ++ rest) :
      Step.heard ⟨.create change' d, y⟩ ∈ rest := by
    unfold pauseBefore at hmem
    split at hmem
    next => simpa using hmem
    next => exact hmem
  induction h with
  | nil => cases hmem
  | cons _ ih =>
    rcases List.mem_cons.mp (hpause hmem) with heq | hrest
    · cases heq
      exact List.mem_cons_self ..
    · exact List.mem_cons_of_mem _ (ih hrest)
  | stop =>
    cases List.mem_singleton.mp (hpause hmem)
    exact List.mem_cons_self ..

theorem grounded_of_forall {steps : List Step}
    (h : ∀ change d x, Step.heard ⟨.create change d, x⟩ ∉ steps) : Grounded steps :=
  fun change d x hmem ↦ absurd hmem (h change d x)

/-- A file that was reviewed has a diff that could be parsed. -/
private theorem Reading.exists_diff {reading : Reading} {file : FileReport}
    (h : reading.review r path existing = .ok file) :
    ∃ text diff, Step.heard ⟨.diff path revisions, .ok text⟩ ∈ reading.steps path revisions ∧
      Reviewer.readDiff text path = .ok diff := by
  cases reading with
  | noDiff e => cases h
  | noContent diff e => cases h
  | read text content base =>
    cases hread : Reviewer.readDiff text path with
    | ok diff => exact ⟨text, diff, List.mem_cons_self .., hread⟩
    | error e =>
      have hsteps : (Reading.read text content base).steps path revisions =
          .heard ⟨.diff path revisions, .ok text⟩ :: _ := rfl
      have herror : ∃ e, (Reading.read text content base).review r path existing = .error e :=
        Reading.exists_error hsteps hread
      obtain ⟨e, he⟩ := herror
      rw [h] at he
      cases he

theorem Reviewer.Visits.grounded {report : RunReport} {steps : List Step}
    {x : Except Failure RunReport} (h : r.Visits change revisions existing report path steps x) :
    Grounded steps := by
  cases h with
  | skipped => exact grounded_of_forall fun _ _ _ h ↦ nomatch h
  | left => exact grounded_of_forall fun _ _ _ h ↦ nomatch Reading.isCreation_of_mem _ h
  | stopped => exact grounded_of_forall fun _ _ _ h ↦ nomatch Reading.isCreation_of_mem _ h
  | @reviewed reading file steps _ _ _ hreview hannotates =>
    intro change' d y hmem
    have hcreated : Step.heard ⟨.create change' d, y⟩ ∈ steps :=
      (List.mem_append.mp hmem).resolve_left fun h ↦ nomatch reading.isCreation_of_mem h
    unfold Reviewer.Annotates at hannotates
    split at hannotates
    next =>
      obtain ⟨rfl, -⟩ := hannotates
      cases hcreated
    next =>
      have hpath := Reading.path_of_review hreview (hannotates.mem_of_heard hcreated)
      have hread : ∃ text diff,
          Step.heard ⟨.diff path revisions, .ok text⟩ ∈ reading.steps path revisions ∧
            Reviewer.readDiff text path = .ok diff := Reading.exists_diff hreview
      obtain ⟨text, diff, hheard, hdiff⟩ := hread
      rw [hpath]
      exact ⟨revisions, text, diff, List.mem_append_left steps hheard, hdiff⟩

theorem Reviewer.VisitsAll.grounded {report : RunReport} {files : List Token} {steps : List Step}
    {x : Except Failure RunReport}
    (h : r.VisitsAll change revisions existing report files steps x) : Grounded steps := by
  induction h with
  | nil => exact grounded_of_forall fun _ _ _ h ↦ nomatch h
  | cons hfirst _ ih => exact hfirst.grounded.append ih
  | stopped hfirst => exact hfirst.grounded
  | misfit => exact grounded_of_forall fun _ _ _ h ↦ nomatch h

/-- A run creates annotations for no file whose diff cannot be parsed. -/
theorem Reviewer.Logs.grounded {steps : List Step} {x : Except Failure RunReport}
    (h : r.Logs change dryRun steps x) : Grounded steps := by
  have hopening (revisions : Revisions) (files : List Token) (annotations : List Annotation) :
      Grounded (opening change revisions files annotations) :=
    grounded_of_forall fun _ _ _ ↦ by simp [opening]
  cases h with
  | stopped _ hvisits => exact (hopening _ _ _).append hvisits.grounded
  | reviewed _ hvisits hescalates =>
    refine (hopening _ _ _).append (hvisits.grounded.append (grounded_of_forall fun _ _ _ ↦ ?_))
    cases hescalates <;> simp
  | _ => exact grounded_of_forall fun _ _ _ ↦ by simp

end RouteWatch
