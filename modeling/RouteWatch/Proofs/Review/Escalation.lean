import RouteWatch.Proofs.Review.Convergence

/-!
# When runs call for attention

A run calls for attention where it has created annotations itself and gets to the end. What it
created stays when it is interrupted, but nothing makes a later run, which finds the annotations in
place, call for attention in its stead.
-/

namespace RouteWatch

/-- The method calls for attention. -/
def Call.Method.escalates : Call.Method → Bool
  | .requestChanges | .ensureLabel => true
  | _ => false

namespace Memory

variable {α β : Type} {r : Reviewer} {m m' m'' : Memory} {method : Call.Method}

/-! ### Runs in a row -/

/-- A call of the method between two states did not fail: it has a number that no rule covers. -/
def Completed (m m' : Memory) (method : Call.Method) : Prop :=
  ∃ number, m.calls.count method < number ∧ number ≤ m'.calls.count method ∧
    ∀ rule ∈ m'.rules, rule.covers method number = false

instance (m m' : Memory) (method : Call.Method) : Decidable (m.Completed m' method) :=
  decidable_of_iff (∃ number ≤ m'.calls.count method, m.calls.count method < number ∧
    ∀ rule ∈ m'.rules, rule.covers method number = false)
    (exists_congr fun _ ↦ and_left_comm)

/-- A live run: where it begins and how it ends. -/
structure LiveRun where
  start : Memory
  outcome : Outcome Memory RunReport

/-- Live runs one after the other, each with its own rules for which calls fail. -/
def liveRuns (r : Reviewer) (change : Token) (m : Memory) : List (List FaultRule) → List LiveRun
  | [] => []
  | rules :: faults =>
    let start := { m with rules }
    let outcome := (r.run backend change false).run start
    ⟨start, outcome⟩ :: liveRuns r change outcome.state faults

namespace LiveRun

/-- The run created an annotation. -/
def Creates (u : LiveRun) : Prop :=
  u.start.annotations.length < u.outcome.state.annotations.length

/-- The run got to the end. -/
def Returns (u : LiveRun) : Prop := ∃ report, u.outcome.answer = .ok report

/-- A call of the method in the run did not fail. -/
def Completes (u : LiveRun) (method : Call.Method) : Prop :=
  u.start.Completed u.outcome.state method

instance (u : LiveRun) : Decidable u.Creates := inferInstanceAs (Decidable (_ < _))

instance (u : LiveRun) (method : Call.Method) : Decidable (u.Completes method) :=
  inferInstanceAs (Decidable (Completed _ _ _))

end LiveRun

/-! ### What an action adds -/

/-- Between two states `count` annotations were added and no call for attention was made. -/
structure Adds (m m' : Memory) (count : Nat) : Prop where
  rules : m'.rules = m.rules
  annotations : m'.annotations.length = m.annotations.length + count
  quiet : ∀ method, method.escalates = true → m'.calls.count method = m.calls.count method

theorem Adds.refl (m : Memory) : m.Adds m 0 := ⟨rfl, rfl, fun _ _ ↦ rfl⟩

theorem Adds.trans {k n : Nat} (h : m.Adds m' k) (h' : m'.Adds m'' n) : m.Adds m'' (k + n) where
  rules := h'.rules.trans h.rules
  annotations := by rw [h'.annotations, h.annotations, Nat.add_assoc]
  quiet := fun method hm ↦ (h'.quiet method hm).trans (h.quiet method hm)

/-- Where no call of a method was made none was completed. -/
theorem not_completed_of_count (h : m'.calls.count method = m.calls.count method) :
    ¬m.Completed m' method := by
  rintro ⟨number, hlt, hle, -⟩
  omega

theorem Adds.not_completed {k : Nat} (h : m.Adds m' k) (hm : method.escalates = true) :
    ¬m.Completed m' method :=
  not_completed_of_count (h.quiet method hm)

/-- A call that was completed stays so while the rules do. -/
theorem Completed.mono (h : m.Completed m' method) (hrules : m''.rules = m'.rules)
    (hcount : m'.calls.count method ≤ m''.calls.count method) : m.Completed m'' method := by
  obtain ⟨number, hlt, hle, hnone⟩ := h
  exact ⟨number, hlt, Nat.le_trans hle hcount, by rwa [hrules]⟩

/-- An action adds so many annotations as its answer tells, and calls for no attention. -/
def Tallies (a : Act Memory α) (tells : Except Failure α → Nat → Prop) : Prop :=
  ∀ m : Memory, a.Ends m fun x m' ↦ ∃ count, m.Adds m' count ∧ tells x count

/-- The action adds nothing. -/
abbrev AddsNothing (a : Act Memory α) : Prop := Tallies a fun _ count ↦ count = 0

theorem tallies_pure {v : α} {tells : Except Failure α → Nat → Prop} (h : tells (.ok v) 0) :
    Tallies (pure v) tells :=
  fun m ↦ ⟨0, Adds.refl m, h⟩

theorem tallies_fail {e : Failure} {tells : Except Failure α → Nat → Prop}
    (h : tells (.error e) 0) : Tallies (Act.fail e) tells :=
  fun m ↦ ⟨0, Adds.refl m, h⟩

theorem Tallies.imp {a : Act Memory α} {tells tells' : Except Failure α → Nat → Prop}
    (h : Tallies a tells) (himp : ∀ x count, tells x count → tells' x count) :
    Tallies a tells' := by
  intro m
  obtain ⟨count, hadds, hx⟩ := h m
  exact ⟨count, hadds, himp _ _ hx⟩

/-- Two actions in a row add what both add. -/
theorem Tallies.bind {a : Act Memory α} {f : α → Act Memory β}
    {tells : Except Failure α → Nat → Prop} {tells' : Except Failure β → Nat → Prop}
    (h : Tallies a tells) (herror : ∀ e count, tells (.error e) count → tells' (.error e) count)
    (hf : ∀ v count, tells (.ok v) count → Tallies (f v) fun y more ↦ tells' y (count + more)) :
    Tallies (a >>= f) tells' := by
  intro m
  rw [Act.ends_bind]
  apply Act.Ends.imp (h m)
  rintro x m' ⟨count, hadds, hx⟩
  cases x with
  | error e => exact ⟨count, hadds, herror e count hx⟩
  | ok v =>
    apply Act.Ends.imp (hf v count hx m')
    rintro y m'' ⟨more, hadds', hy⟩
    exact ⟨count + more, hadds.trans hadds', hy⟩

/-- An action that adds nothing may come first. -/
theorem AddsNothing.bind {a : Act Memory α} {f : α → Act Memory β}
    {tells : Except Failure β → Nat → Prop} (h : AddsNothing a)
    (herror : ∀ e, tells (.error e) 0) (hf : ∀ v, Tallies (f v) tells) :
    Tallies (a >>= f) tells := by
  apply Tallies.bind h
  · rintro e _ rfl
    exact herror e
  · rintro v _ rfl
    simpa only [Nat.zero_add] using hf v

theorem addsNothing_emit (e : Event) : AddsNothing (Act.emit e) :=
  fun m ↦ ⟨0, Adds.refl m, rfl⟩

theorem addsNothing_state : AddsNothing Act.state := fun m ↦ ⟨0, Adds.refl m, rfl⟩

theorem addsNothing_ofExcept (x : Except Failure α) : AddsNothing (Act.ofExcept x) :=
  fun m ↦ Act.ends_ofExcept.mpr ⟨0, Adds.refl m, rfl⟩

theorem AddsNothing.attempt {a : Act Memory α} (h : AddsNothing a) : AddsNothing a.attempt :=
  fun m ↦ Act.ends_attempt.mpr (h m)

theorem AddsNothing.recover {a : Act Memory α} {f : Failure → Act Memory α} (h : AddsNothing a)
    (hf : ∀ e, AddsNothing (f e)) : AddsNothing (a.recover f) := by
  intro m
  rw [Act.ends_recover]
  apply Act.Ends.imp (h m)
  rintro x m' ⟨_, hadds, rfl⟩
  cases x with
  | ok v => exact ⟨0, hadds, rfl⟩
  | error e =>
    apply Act.Ends.imp (hf e m')
    rintro y m'' ⟨_, hadds', rfl⟩
    exact ⟨0, hadds.trans hadds', rfl⟩

/-! ### Calls -/

/-- A call is noted, and fails where a rule covers its number. -/
theorem ends_note (call : Call) :
    (note call).Ends m fun x m' ↦
      m'.rules = m.rules ∧ m'.annotations = m.annotations ∧ m'.calls = call.method :: m.calls ∧
        (x = .ok () ↔ ∀ rule ∈ m.rules,
          rule.covers call.method (m.calls.count call.method + 1) = false) := by
  rw [Act.Ends, run_note]
  dsimp only
  split
  next rule hrule =>
    refine ⟨rfl, rfl, rfl, iff_of_false ?_ fun hnone ↦ ?_⟩
    · intro h
      cases h
    · have hcovers := List.find?_some hrule
      rw [hnone rule (List.mem_of_find?_eq_some hrule)] at hcovers
      cases hcovers
  next hrule =>
    refine ⟨rfl, rfl, rfl, fun _ rule hmem ↦ ?_, fun _ ↦ rfl⟩
    simpa using List.find?_eq_none.mp hrule rule hmem

/-- The first call of a method since a state is completed where it does not fail. -/
theorem ends_note_completed (call : Call)
    (h : m'.calls.count call.method = m.calls.count call.method) :
    (note call).Ends m' fun x m'' ↦
      m''.rules = m'.rules ∧ m''.annotations = m'.annotations ∧
        m''.calls = call.method :: m'.calls ∧ (x = .ok () ↔ m.Completed m'' call.method) := by
  apply Act.Ends.imp (ends_note call)
  rintro x m'' ⟨hrules, hannotations, hcalls, hx⟩
  have hcount : m''.calls.count call.method = m'.calls.count call.method + 1 := by
    rw [hcalls, List.count_cons_self]
  refine ⟨hrules, hannotations, hcalls, hx.trans ⟨fun hnone ↦ ?_, ?_⟩⟩
  · exact ⟨m'.calls.count call.method + 1, by omega, Nat.le_of_eq hcount.symm, by rwa [hrules]⟩
  · rintro ⟨number, hlt, hle, hnone⟩
    rw [hrules] at hnone
    obtain rfl : number = m'.calls.count call.method + 1 := by omega
    exact hnone

/-- A call that is not for attention adds nothing. -/
theorem addsNothing_note {call : Call} (h : call.method.escalates = false) :
    AddsNothing (note call) := by
  intro m
  apply Act.Ends.imp (ends_note call)
  rintro x m' ⟨hrules, hannotations, hcalls, -⟩
  refine ⟨0, ⟨hrules, by rw [hannotations]; rfl, fun method hm ↦ ?_⟩, rfl⟩
  rw [hcalls, List.count_cons_of_ne]
  rintro rfl
  rw [h] at hm
  cases hm

/-- A call that answers by the state adds nothing. -/
private theorem addsNothing_answer {call : Call} {f : Memory → Act Memory α}
    (h : call.method.escalates = false) (hf : ∀ s, AddsNothing (f s)) :
    AddsNothing (note call >>= fun _ ↦ Act.state >>= f) :=
  (addsNothing_note h).bind (fun _ ↦ rfl) fun _ ↦ addsNothing_state.bind (fun _ ↦ rfl) hf

theorem addsNothing_revisions (change : Token) : AddsNothing (backend.revisions change) :=
  (addsNothing_note rfl).bind (fun _ ↦ rfl) fun _ ↦ tallies_pure rfl

theorem addsNothing_changedFiles (change : Token) : AddsNothing (backend.changedFiles change) :=
  addsNothing_answer rfl fun _ ↦ tallies_pure rfl

theorem addsNothing_annotations (change : Token) : AddsNothing (backend.annotations change) :=
  addsNothing_answer rfl fun _ ↦ tallies_pure rfl

theorem addsNothing_diff (path : String) (revisions : Revisions) :
    AddsNothing (backend.diff path revisions) :=
  addsNothing_answer rfl fun _ ↦ tallies_pure rfl

theorem addsNothing_content (path : String) (ref : Token) :
    AddsNothing (backend.content path ref) := by
  apply addsNothing_answer rfl
  intro s
  split
  · exact tallies_pure rfl
  · exact tallies_fail rfl

/-- A creation that succeeds adds one annotation. -/
theorem tallies_create (change : Token) (d : Draft) :
    Tallies (backend.create change d) fun x count ↦ ∀ id, x = .ok id → count = 1 := by
  apply AddsNothing.bind (addsNothing_note rfl)
  · exact fun _ _ h ↦ nomatch h
  · intro _ m
    simp only [store, Act.ends_bind, Act.ends_state, Act.ends_setState, Act.ends_pure]
    exact ⟨1, ⟨rfl, by rw [List.length_append]; rfl, fun _ _ ↦ rfl⟩, fun _ _ ↦ rfl⟩

/-! ### Files -/

/-- The creation of annotations for drafts adds as many as it gives identifiers. -/
theorem tallies_createAll (change : Token) (delay : Seconds) (previous : Option String)
    (ds : List Draft) :
    Tallies (createAll backend change delay previous ds) fun x count ↦
      ∀ ids, x = .ok ids → count = ids.length := by
  induction ds generalizing previous with
  | nil =>
    apply tallies_pure
    rintro _ h
    obtain rfl := Except.ok.inj h
    rfl
  | cons d ds ih =>
    have hstep : Tallies (do
        let id ← backend.create change d
        Act.print ("[Reconciler] Created annotation " ++ id.plain ++ " on " ++ d.path ++ ":" ++
          Text.showInt d.line)
        let ids ← createAll backend change delay (some d.path) ds
        return id :: ids) fun x count ↦
          ∀ ids : List Token, x = .ok ids → count = ids.length := by
      apply (tallies_create change d).bind (fun _ _ _ _ h ↦ nomatch h)
      intro id count hcount
      apply (addsNothing_emit _).bind (fun _ _ h ↦ nomatch h)
      intro _
      apply (ih (some d.path)).bind (fun _ _ _ _ h ↦ nomatch h)
      intro ids more hmore
      apply tallies_pure
      rintro _ h
      obtain rfl := Except.ok.inj h
      rw [hcount id rfl, hmore ids rfl, List.length_cons]
      omega
    rw [createAll]
    dsimp only
    split
    · exact (addsNothing_emit _).bind (fun _ _ h ↦ nomatch h) fun _ ↦ hstep
    · exact hstep

theorem addsNothing_readBase (path : String) (revisions : Revisions) :
    AddsNothing (Reviewer.readBase backend path revisions) := by
  apply (addsNothing_content path _).recover
  intro e
  split
  · exact tallies_pure rfl
  · exact tallies_fail rfl

theorem addsNothing_previewFrom (revisions : Revisions) (existing : List Annotation)
    (path : String) : AddsNothing (r.previewFrom backend revisions existing path) := by
  apply (addsNothing_diff path revisions).bind fun _ ↦ rfl
  intro diff
  apply (addsNothing_content path _).bind fun _ ↦ rfl
  intro content
  dsimp only
  split
  · apply AddsNothing.bind _ (fun _ ↦ rfl) fun _ ↦ addsNothing_ofExcept _
    rw [map_eq_pure_bind]
    exact (addsNothing_readBase path revisions).bind (fun _ ↦ rfl) fun _ ↦ tallies_pure rfl
  · exact addsNothing_ofExcept _

/-- The answer tells by how many the annotations that were created have become more. -/
def TellsFrom (report : RunReport) (x : Except Failure RunReport) (count : Nat) : Prop :=
  ∀ report', x = .ok report' → report'.created = report.created + count

private theorem tellsFrom_error {report : RunReport} {e : Failure} {count : Nat} :
    TellsFrom report (.error e) count :=
  fun _ h ↦ nomatch h

private theorem tellsFrom_same {report report' : RunReport}
    (h : report'.created = report.created) : TellsFrom report (.ok report') 0 := by
  intro _ heq
  rw [← Except.ok.inj heq, h, Nat.add_zero]

theorem tallies_annotate (change : Token) (report : RunReport) (file : FileReport) :
    Tallies (r.annotate backend change report file) (TellsFrom report) := by
  have hreport (ids : List Token) : Tallies (pure { report with
        files := report.files ++ [{ file with createdIds := ids }]
        created := report.created + ids.length })
      fun x more ↦ TellsFrom report x (ids.length + more) := by
    apply tallies_pure
    intro _ h
    rw [← Except.ok.inj h, Nat.add_zero]
  unfold Reviewer.annotate
  apply (addsNothing_emit _).bind fun _ ↦ tellsFrom_error
  intro _
  dsimp only
  split
  · rw [pure_bind]
    simpa only [List.length_nil, Nat.zero_add] using hreport []
  · apply (tallies_createAll change r.delay none file.planned).bind fun _ _ _ ↦ tellsFrom_error
    intro ids count hcount
    rw [hcount ids rfl]
    exact hreport ids

theorem tallies_fileFailed (report : RunReport) (path : String) (failure : Failure) :
    Tallies (r.fileFailed report path failure) (TellsFrom report) := by
  unfold Reviewer.fileFailed
  split
  · split
    · apply (addsNothing_emit _).bind fun _ ↦ tellsFrom_error
      intro _
      dsimp only
      split
      · exact tallies_fail tellsFrom_error
      · exact tallies_pure (tellsFrom_same rfl)
    · exact tallies_fail tellsFrom_error
  · exact tallies_fail tellsFrom_error

theorem tallies_reviewFile (change : Token) (revisions : Revisions) (existing : List Annotation)
    (report : RunReport) (path : String) :
    Tallies (r.reviewFile backend change revisions existing report path) (TellsFrom report) := by
  unfold Reviewer.reviewFile
  split
  · exact tallies_pure (tellsFrom_same rfl)
  · apply (addsNothing_previewFrom revisions existing path).attempt.bind fun _ ↦ tellsFrom_error
    intro x
    cases x with
    | ok file => exact tallies_annotate change _ file
    | error failure => exact tallies_fileFailed _ path failure

theorem tallies_reviewFiles (change : Token) (revisions : Revisions) (existing : List Annotation)
    (files : List Token) (report : RunReport) :
    Tallies (r.reviewFiles backend change revisions existing report files)
      (TellsFrom report) := by
  induction files generalizing report with
  | nil => exact tallies_pure (tellsFrom_same rfl)
  | cons file files ih =>
    unfold Reviewer.reviewFiles
    split
    next => exact tallies_pure (tellsFrom_same rfl)
    next path rest heq =>
      obtain ⟨rfl, rfl⟩ := List.cons.inj heq
      apply (tallies_reviewFile change revisions existing report path).bind
        fun _ _ _ ↦ tellsFrom_error
      intro next count hcount
      apply (ih next).imp
      intro x more hx report' hreport'
      rw [hx report' hreport', hcount next rfl, Nat.add_assoc]
    next => exact tallies_fail tellsFrom_error

/-! ### Runs -/

/-- How a run ends: calls for attention were completed where it created annotations and got to the
end; the first of them also where only the second one failed. -/
structure Escalates (m : Memory) (x : Except Failure RunReport) (m' : Memory) : Prop where
  ensureLabel : m.Completed m' .ensureLabel ↔
    (∃ report, x = .ok report) ∧ m.annotations.length < m'.annotations.length
  requestChanges : m.Completed m' .ensureLabel → m.Completed m' .requestChanges

/-- A run that is stopped before it calls for attention. -/
private theorem Adds.escalates_stopped {k : Nat} {e : Failure} (h : m.Adds m' k) :
    m.Escalates (.error e) m' := by
  have hnot : ¬m.Completed m' .ensureLabel := h.not_completed rfl
  exact ⟨⟨fun hc ↦ absurd hc hnot, fun ⟨⟨_, heq⟩, _⟩ ↦ nomatch heq⟩, fun hc ↦ absurd hc hnot⟩

/-- After a run that created annotations changes are requested and the change is labelled. -/
private theorem Adds.ends_escalate {k : Nat} {report : RunReport} (h : m.Adds m' k)
    (hreport : report.created = k) (change : Token) :
    (r.escalate backend change report).Ends m' m.Escalates := by
  have hannotations := h.annotations
  unfold Reviewer.escalate
  split
  next hnone =>
    rw [Act.ends_pure]
    have hnot : ¬m.Completed m' .ensureLabel := h.not_completed rfl
    refine ⟨⟨fun hc ↦ absurd hc hnot, fun ⟨_, hlt⟩ ↦ ?_⟩, fun hc ↦ absurd hc hnot⟩
    omega
  next hsome =>
    rw [Act.ends_bind]
    apply Act.Ends.imp (ends_note_completed (.requestChanges change r.comment) (h.quiet _ rfl))
    rintro x m₁ ⟨hrules₁, hannotations₁, hcalls₁, hx⟩
    have hquiet : m₁.calls.count .ensureLabel = m.calls.count .ensureLabel := by
      rw [hcalls₁, Call.method, List.count_cons_of_ne (by decide), h.quiet _ rfl]
    cases x with
    | error e =>
      have hnot := not_completed_of_count hquiet
      exact ⟨⟨fun hc ↦ absurd hc hnot, fun ⟨⟨_, heq⟩, _⟩ ↦ nomatch heq⟩, fun hc ↦ absurd hc hnot⟩
    | ok _ =>
      have hrequested := hx.mp rfl
      dsimp only
      rw [Act.ends_bind]
      apply Act.Ends.imp (ends_note_completed (.ensureLabel change r.config.label) hquiet)
      rintro y m₂ ⟨hrules₂, hannotations₂, hcalls₂, hy⟩
      have hrequested₂ : m.Completed m₂ .requestChanges := by
        apply hrequested.mono hrules₂
        rw [hcalls₂]
        exact List.count_le_count_cons
      cases y with
      | error e =>
        refine ⟨⟨fun hc ↦ ?_, fun ⟨⟨_, heq⟩, _⟩ ↦ nomatch heq⟩, fun _ ↦ hrequested₂⟩
        cases hy.mpr hc
      | ok _ =>
        rw [Act.ends_pure]
        refine ⟨⟨fun _ ↦ ⟨⟨_, rfl⟩, ?_⟩, fun _ ↦ hy.mp rfl⟩, fun _ ↦ hrequested₂⟩
        rw [hannotations₂, hannotations₁]
        omega

/-- A run goes on from an action that adds nothing, or is stopped there. -/
private theorem Adds.ends_bind {a : Act Memory α} {f : α → Act Memory RunReport}
    (h : m.Adds m' 0) (ha : AddsNothing a)
    (hf : ∀ v s, m.Adds s 0 → (f v).Ends s m.Escalates) : (a >>= f).Ends m' m.Escalates := by
  rw [Act.ends_bind]
  apply Act.Ends.imp (ha m')
  rintro x s ⟨_, hadds, rfl⟩
  cases x with
  | error e => exact (h.trans hadds).escalates_stopped
  | ok v => exact hf v s (h.trans hadds)

/-- A run calls for attention as it has to, whichever calls fail. -/
theorem ends_run_escalates (r : Reviewer) (change : Token) (dryRun : Bool) (m : Memory) :
    (r.run backend change dryRun).Ends m m.Escalates := by
  unfold Reviewer.run
  rw [Act.ends_bind, Act.ends_ofExcept]
  cases hreport : Reviewer.emptyReport change dryRun with
  | error e => exact (Adds.refl m).escalates_stopped
  | ok report =>
    obtain ⟨n, rfl⟩ := Reviewer.eq_of_emptyReport hreport
    apply (Adds.refl m).ends_bind (addsNothing_revisions change)
    intro revisions m₁ h₁
    apply h₁.ends_bind (addsNothing_changedFiles change)
    intro files m₂ h₂
    apply h₂.ends_bind (addsNothing_annotations change)
    intro annotations m₃ h₃
    apply h₃.ends_bind (addsNothing_emit _)
    intro _ m₄ h₄
    rw [Act.ends_bind]
    apply Act.Ends.imp (tallies_reviewFiles change revisions _ files _ m₄)
    rintro x m₅ ⟨count, h₅, hx⟩
    cases x with
    | error e => exact (h₄.trans h₅).escalates_stopped
    | ok report => exact (h₄.trans h₅).ends_escalate (hx report rfl) change

/-! ### The law -/

/-- Each of some runs in a row calls for attention as it has to. -/
theorem escalates_of_mem_liveRuns {change : Token} {faults : List (List FaultRule)} {u : LiveRun}
    (hu : u ∈ m.liveRuns r change faults) :
    u.start.Escalates u.outcome.answer u.outcome.state := by
  induction faults generalizing m with
  | nil => exact absurd hu List.not_mem_nil
  | cons rules faults ih =>
    rcases List.mem_cons.mp hu with rfl | hu
    · exact ends_run_escalates r change false _
    · exact ih hu

/-- In runs one after the other, of which any may be interrupted at any call and the last one is
not, both calls for attention are completed where one of the runs created an annotation and got to
the end, and nowhere else. -/
theorem escalation_completed_iff (r : Reviewer) (change : Token) (m : Memory)
    (faults : List (List FaultRule)) :
    ((∃ u ∈ m.liveRuns r change (faults ++ [[]]), u.Completes .requestChanges) ∧
        ∃ u ∈ m.liveRuns r change (faults ++ [[]]), u.Completes .ensureLabel) ↔
      ∃ u ∈ m.liveRuns r change (faults ++ [[]]), u.Creates ∧ u.Returns := by
  constructor
  · rintro ⟨-, u, hu, hlabelled⟩
    obtain ⟨hreturns, hcreates⟩ := (escalates_of_mem_liveRuns hu).ensureLabel.mp hlabelled
    exact ⟨u, hu, hcreates, hreturns⟩
  · rintro ⟨u, hu, hcreates, hreturns⟩
    have hescalates := escalates_of_mem_liveRuns hu
    have hlabelled := hescalates.ensureLabel.mpr ⟨hreturns, hcreates⟩
    exact ⟨⟨u, hu, hescalates.requestChanges hlabelled⟩, u, hu, hlabelled⟩

/-- A rule by which changes may not be requested the first time. -/
def refusedRequest : FaultRule := ⟨.requestChanges, some 1, ⟨.api (some 502), "refused", none⟩⟩

/-- The first run creates an annotation and then may not request changes. The second one, in which
nothing fails, finds the annotation in place and calls for no attention. -/
theorem escalation_lost :
    routeAdded.author = Reviewer.ofDefaults.config.author ∧
      (∃ u ∈ routeAdded.liveRuns Reviewer.ofDefaults (.int 7) ([[refusedRequest]] ++ [[]]),
        u.Creates) ∧
      ∀ u ∈ routeAdded.liveRuns Reviewer.ofDefaults (.int 7) ([[refusedRequest]] ++ [[]]),
        ¬u.Completes .requestChanges ∧ ¬u.Completes .ensureLabel := by
  decide +kernel

end Memory

end RouteWatch
