import RouteWatch.Proofs.Action.TwoRuns
import RouteWatch.Proofs.Review.Dialogue
import RouteWatch.Proofs.Review.Memory

/-!
# What the backend in memory answers

Each call of the backend in memory is seen, and is answered by the first rule that refuses it, else
by the contents. So two of these backends that differ in their rules only, and refuse none of some
calls or the same ones, answer these calls alike.
-/

namespace RouteWatch

/-- The calls among some events. -/
def callsOf (events : List Event) : List Call :=
  events.filterMap fun e ↦
    match e with
    | .called call => some call
    | _ => none

theorem callsOf_append (events more : List Event) :
    callsOf (events ++ more) = callsOf events ++ callsOf more :=
  List.filterMap_append

theorem callsOf_called (call : Call) (events : List Event) :
    callsOf (.called call :: events) = call :: callsOf events :=
  List.filterMap_cons_some rfl

namespace Memory

variable {m m' : Memory} {α : Type}

/-! ### One call -/

/-- The trouble for which a rule refuses a call that comes after others. -/
def refusal? (m : Memory) (before : List Call) (call : Call) : Option Trouble :=
  (m.rules.find? (·.covers call.method
    ((before.map Call.method ++ m.calls).count call.method + 1))).map (·.trouble)

/-- What a call is answered that is not refused. -/
def replyTo (m : Memory) : (call : Call) → Except Failure call.Answer
  | .revisions _ => .ok ⟨.text baseRef, .text headRef⟩
  | .changedFiles _ => .ok (m.files.map fun file ↦ .text file.path)
  | .content path ref => m.read path ref
  | .diff path _ => .ok (m.diffOf path)
  | .annotations _ => .ok m.annotations
  | .create _ _ => .ok (.int (m.annotations.length + 1))
  | .requestChanges _ _ => .ok ()
  | .ensureLabel _ _ => .ok ()

/-- What a call is answered. -/
def answerTo (m : Memory) (call : Call) : Except Failure call.Answer :=
  match m.refusal? [] call with
  | some t => .error (.trouble t)
  | none => m.replyTo call

/-- A call that succeeds is answered with its reply. -/
theorem replyTo_of_answerTo {call : Call} {v : call.Answer} (h : m.answerTo call = .ok v) :
    m.replyTo call = .ok v := by
  unfold answerTo at h
  split at h
  next => cases h
  next => exact h

/-- The state after a call that was answered so. -/
def after (m : Memory) : Reply → Memory
  | ⟨.create _ d, .ok _⟩ =>
    { m with calls := .create :: m.calls, annotations := m.annotations ++ [m.stored d] }
  | ⟨call, _⟩ => { m with calls := call.method :: m.calls }

private theorem run_note_eq (call : Call) (m : Memory) :
    (note call).run m =
      ⟨match m.refusal? [] call with
        | some t => .error (.trouble t)
        | none => .ok (),
        { m with calls := call.method :: m.calls }, [.called call]⟩ := by
  rw [run_note, refusal?, List.map_nil, List.nil_append]
  cases m.rules.find? _ <;> rfl

private theorem run_note_bind (call : Call) (f : Unit → Act Memory α) (m : Memory) :
    (note call >>= f).run m =
      match m.refusal? [] call with
      | some t => ⟨.error (.trouble t), { m with calls := call.method :: m.calls }, [.called call]⟩
      | none =>
        let o := (f ()).run { m with calls := call.method :: m.calls }
        ⟨o.answer, o.state, .called call :: o.trace⟩ := by
  have hnote := run_note_eq call m
  cases hrefusal : m.refusal? [] call with
  | some t =>
    rw [hrefusal] at hnote
    exact Act.run_bind_error hnote f
  | none =>
    rw [hrefusal] at hnote
    exact Act.run_bind_ok hnote f

/-- How the backend runs. -/
theorem run_ask (m : Memory) (call : Call) :
    (backend.ask call).run m =
      ⟨m.answerTo call, m.after ⟨call, m.answerTo call⟩, [.called call]⟩ := by
  unfold answerTo
  cases call with
  | content path ref =>
    refine (run_note_bind _ _ m).trans ?_
    cases m.refusal? [] (.content path ref) with
    | some t => rfl
    | none =>
      simp only [replyTo, read, readContent, bind, Act.run, Act.andThen, Act.state]
      generalize hfound : content? _ _ _ = found
      have hsame : m.content? path ref = found := hfound
      rw [hsame]
      cases found <;> rfl
  | requestChanges change body =>
    refine (run_note_eq _ m).trans ?_
    cases m.refusal? [] (.requestChanges change body) <;> rfl
  | ensureLabel change name =>
    refine (run_note_eq _ m).trans ?_
    cases m.refusal? [] (.ensureLabel change name) <;> rfl
  | _ =>
    refine (run_note_bind _ _ m).trans ?_
    cases m.refusal? [] _ <;> rfl

/-- The backend shows its calls, and nothing else. -/
theorem observed_backend : backend.observed = backend := by
  have hask (call : Call) : (backend.ask call).heardAs call = backend.ask call := by
    funext m
    show Outcome.mk ((backend.ask call).run m).answer ((backend.ask call).run m).state _ = _
    rw [run_ask]
    exact (run_ask m call).symm
  simp only [Backend.observed]
  congr
  · exact funext fun change ↦ hask (.revisions change)
  · exact funext fun change ↦ hask (.changedFiles change)
  · exact funext fun path ↦ funext fun ref ↦ hask (.content path ref)
  · exact funext fun path ↦ funext fun revisions ↦ hask (.diff path revisions)
  · exact funext fun change ↦ hask (.annotations change)
  · exact funext fun change ↦ funext fun d ↦ hask (.create change d)
  · exact funext fun change ↦ funext fun body ↦ hask (.requestChanges change body)
  · exact funext fun change ↦ funext fun name ↦ hask (.ensureLabel change name)

/-! ### Calls in a row -/

/-- The state after some steps. -/
def afterSteps (m : Memory) (steps : List Step) : Memory :=
  steps.foldl (fun m step ↦
    match step with
    | .slept _ => m
    | .heard reply => m.after reply) m

/-- The steps of the backend lead from one state to the next. -/
theorem eq_afterSteps {steps : List Step} (h : backend.Plays m steps m') :
    m' = m.afterSteps steps := by
  induction h with
  | nil => rfl
  | slept time rest ih => exact ih
  | @heard m m' steps call rest ih =>
    rw [run_ask] at ih ⊢
    exact ih

/-- A call is answered by the state that the steps before it have led to. -/
theorem answer_eq {pre post : List Step} {reply : Reply}
    (h : backend.Plays m (pre ++ .heard reply :: post) m') :
    reply.answer = (m.afterSteps pre).answerTo reply.call := by
  obtain ⟨n, hpre, hpost⟩ := h.of_append
  obtain rfl := eq_afterSteps hpre
  cases hpost with
  | heard call hpost => rw [run_ask]

theorem plays_heard {call : Call} {steps : List Step}
    (h : backend.Plays (m.after ⟨call, m.answerTo call⟩) steps m') :
    backend.Plays m (.heard ⟨call, m.answerTo call⟩ :: steps) m' := by
  have hrun := run_ask m call
  have hanswer : ((backend.ask call).run m).answer = m.answerTo call := by rw [hrun]
  have hstate : ((backend.ask call).run m).state = m.after ⟨call, m.answerTo call⟩ := by rw [hrun]
  rw [← hstate] at h
  rw [← hanswer]
  exact .heard call h

/-- After a call the other ones have one more before them. -/
theorem refusal?_after (reply : Reply) (before : List Call) (call : Call) :
    (m.after reply).refusal? before call = m.refusal? (reply.call :: before) call := by
  have hrules : (m.after reply).rules = m.rules := by
    unfold after
    split <;> rfl
  have hcalls : (m.after reply).calls = reply.call.method :: m.calls := by
    unfold after
    split <;> rfl
  have hcount : (before.map Call.method ++ reply.call.method :: m.calls).count call.method =
      ((reply.call :: before).map Call.method ++ m.calls).count call.method := by
    simp only [List.map_cons, List.cons_append, List.count_append, List.count_cons]
    omega
  rw [refusal?, refusal?, hrules, hcalls, hcount]

theorem refusal?_afterSteps (steps : List Step) (before : List Call) (call : Call) :
    (m.afterSteps steps).refusal? before call =
      m.refusal? (callsOf (steps.map Step.event) ++ before) call := by
  induction steps generalizing m with
  | nil => rfl
  | cons step steps ih =>
    cases step with
    | slept time => exact ih
    | heard reply =>
      refine (ih (m := m.after reply)).trans ?_
      rw [refusal?_after, List.map_cons, Step.event, callsOf_called, List.cons_append]

private theorem after_rules (rules : List FaultRule) (reply : Reply) :
    { m with rules }.after reply = { m.after reply with rules } := by
  unfold after
  split <;> rfl

private theorem answerTo_rules {rules : List FaultRule} {call : Call}
    (h : m.refusal? [] call = { m with rules }.refusal? [] call) :
    { m with rules }.answerTo call = m.answerTo call := by
  rw [answerTo, answerTo, h]
  split
  next => rfl
  next => cases call <;> rfl

/-- A backend with other rules that refuse the same ones of some calls answers these calls alike. -/
theorem plays_of_refusals {rules : List FaultRule} {steps : List Step}
    (h : backend.Plays { m with rules } steps m')
    (hsame : ∀ before call rest, callsOf (steps.map Step.event) = before ++ call :: rest →
      m.refusal? before call = { m with rules }.refusal? before call) :
    backend.Plays m steps { m' with rules := m.rules } := by
  induction steps generalizing m with
  | nil =>
    cases h
    exact .nil m
  | cons step steps ih =>
    cases h with
    | slept time h => exact .slept time (ih h hsame)
    | heard call h =>
      rw [run_ask] at h ⊢
      rw [answerTo_rules (hsame [] call _ rfl)] at h ⊢
      apply plays_heard
      rw [after_rules] at h
      have hrules : (m.after ⟨call, m.answerTo call⟩).rules = m.rules := by
        unfold after
        split <;> rfl
      rw [← hrules]
      apply ih h
      intro before next rest hcalls
      rw [← after_rules, refusal?_after, refusal?_after]
      apply hsame _ _ rest
      rw [List.map_cons, Step.event, callsOf_called, hcalls, List.cons_append]

/-! ### What is known of the calls of a run -/

/-- The trouble that a content which is asked for is missing. -/
def missing? (m : Memory) : Call → Option Trouble
  | .content path ref =>
    match m.content? path ref with
    | some _ => none
    | none => some ⟨.read, "not found at " ++ ref.plain, some path⟩
  | _ => none

theorem replyTo_eq_error {call : Call} {t : Trouble} (h : m.missing? call = some t) :
    m.replyTo call = .error (.trouble t) := by
  cases call with
  | content path ref =>
    simp only [missing?] at h
    simp only [replyTo, read]
    cases hcontent : m.content? path ref with
    | some content =>
      rw [hcontent] at h
      cases h
    | none =>
      rw [hcontent] at h
      exact congrArg (Except.error ∘ Failure.trouble) (Option.some.inj h)
  | _ => cases h

theorem exists_replyTo_eq {call : Call} (h : m.missing? call = none) :
    ∃ reply, m.replyTo call = .ok reply := by
  cases call with
  | content path ref =>
    simp only [missing?] at h
    simp only [replyTo, read]
    cases hcontent : m.content? path ref with
    | some content => exact ⟨content, rfl⟩
    | none =>
      rw [hcontent] at h
      cases h
  | _ => exact ⟨_, rfl⟩

/-- The trouble for which a call fails that comes after others: a rule refuses it, or the content
that it asks for is missing. -/
def trouble? (m : Memory) (before : List Call) (call : Call) : Option Trouble :=
  (m.refusal? before call).or (m.missing? call)

/-- Steps change neither the contents nor the diffs. -/
theorem contents_afterSteps (m : Memory) (steps : List Step) :
    (m.afterSteps steps).files = m.files ∧ (m.afterSteps steps).diffs = m.diffs := by
  induction steps generalizing m with
  | nil => exact ⟨rfl, rfl⟩
  | cons step steps ih =>
    cases step with
    | slept time => exact ih m
    | heard reply =>
      have hreply : (m.after reply).files = m.files ∧ (m.after reply).diffs = m.diffs := by
        unfold after
        split <;> exact ⟨rfl, rfl⟩
      rw [← hreply.1, ← hreply.2]
      exact ih (m.after reply)

theorem missing?_afterSteps (m : Memory) (steps : List Step) (call : Call) :
    (m.afterSteps steps).missing? call = m.missing? call := by
  cases call with
  | content path ref =>
    rw [missing?, missing?, Memory.content?, Memory.content?, file?, file?,
      (contents_afterSteps m steps).1]
  | _ => rfl

theorem diffOf_afterSteps (m : Memory) (steps : List Step) (path : String) :
    (m.afterSteps steps).diffOf path = m.diffOf path := by
  obtain ⟨hfiles, hdiffs⟩ := contents_afterSteps m steps
  rw [Memory.diffOf, Memory.diffOf, file?, file?, hfiles, hdiffs]

private theorem answerTo_afterSteps_eq (steps : List Step) (call : Call) :
    (m.afterSteps steps).answerTo call =
      match m.refusal? (callsOf (steps.map Step.event)) call with
      | some t => .error (.trouble t)
      | none => (m.afterSteps steps).replyTo call := by
  rw [answerTo, refusal?_afterSteps, List.append_nil]

/-- A call for which there is trouble after the calls before it fails with it. -/
theorem answerTo_afterSteps_of_trouble {steps : List Step} {call : Call} {t : Trouble}
    (h : m.trouble? (callsOf (steps.map Step.event)) call = some t) :
    (m.afterSteps steps).answerTo call = .error (.trouble t) := by
  rw [answerTo_afterSteps_eq]
  obtain hrefused | ⟨hnone, hmissing⟩ := Option.or_eq_some_iff.mp h
  · rw [hrefused]
  · rw [hnone]
    rw [← missing?_afterSteps m steps] at hmissing
    exact replyTo_eq_error hmissing

/-- A call for which there is no trouble after the calls before it gets its reply. -/
theorem answerTo_afterSteps {steps : List Step} {call : Call}
    (h : m.trouble? (callsOf (steps.map Step.event)) call = none) :
    (m.afterSteps steps).answerTo call = (m.afterSteps steps).replyTo call ∧
      ∃ reply, (m.afterSteps steps).replyTo call = .ok reply := by
  rw [answerTo_afterSteps_eq]
  obtain ⟨hnone, hfound⟩ := Option.or_eq_none_iff.mp h
  rw [hnone]
  rw [← missing?_afterSteps m steps] at hfound
  exact ⟨rfl, exists_replyTo_eq hfound⟩

/-- A call in some steps for which there is no trouble is answered with its reply. -/
theorem exists_answer_eq {pre post : List Step} {call : Call} {x : Except Failure call.Answer}
    (h : backend.Plays m (pre ++ .heard ⟨call, x⟩ :: post) m')
    (htrouble : m.trouble? (callsOf (pre.map Step.event)) call = none) :
    ∃ v, x = .ok v ∧ (m.afterSteps pre).replyTo call = .ok v := by
  obtain ⟨hanswer, v, hv⟩ := answerTo_afterSteps htrouble
  exact ⟨v, (answer_eq h).trans (hanswer.trans hv), hv⟩

/-! ### Annotations that were created -/

/-- The drafts among some calls whose annotations are created. -/
def draftsOf (calls : List Call) : List Draft :=
  calls.filterMap fun call ↦
    match call with
    | .create _ d => some d
    | _ => none

/-- The state with the annotations of drafts added in order. -/
def storeAll (m : Memory) (ds : List Draft) : Memory :=
  ds.foldl (fun m d ↦ m.add (m.stored d)) m

private theorem storeAll_calls (m : Memory) (calls : List Call.Method) (ds : List Draft) :
    ({ m with calls }.storeAll ds).annotations = (m.storeAll ds).annotations := by
  induction ds generalizing m with
  | nil => rfl
  | cons d ds ih => exact ih (m.add (m.stored d))

/-- A call that fails creates nothing. -/
theorem annotations_after_error (m : Memory) (call : Call) (e : Failure) :
    (m.after ⟨call, .error e⟩).annotations = m.annotations := by
  cases call <;> rfl

/-- The annotations after steps are those that were created in them, where no creation failed. -/
theorem annotations_afterSteps {steps : List Step}
    (h : ∀ change d e, Step.heard ⟨.create change d, .error e⟩ ∉ steps) :
    (m.afterSteps steps).annotations =
      (m.storeAll (draftsOf (callsOf (steps.map Step.event)))).annotations := by
  induction steps generalizing m with
  | nil => rfl
  | cons step steps ih =>
    have hrest (m : Memory) := ih (m := m) fun change d e hmem ↦
      h change d e (List.mem_cons_of_mem _ hmem)
    cases step with
    | slept time => exact hrest m
    | heard reply =>
      obtain ⟨call, answer⟩ := reply
      refine (hrest (m.after ⟨call, answer⟩)).trans ?_
      rw [List.map_cons, Step.event, callsOf_called]
      cases call with
      | create change d =>
        cases answer with
        | error e => exact absurd (List.mem_cons_self ..) (h change d e)
        | ok id => exact storeAll_calls (m.add (m.stored d)) (.create :: m.calls) _
      | _ => exact storeAll_calls m (_ :: m.calls) _

end Memory

end RouteWatch
