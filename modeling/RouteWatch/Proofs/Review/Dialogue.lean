import RouteWatch.Review.Backend

/-!
# Dialogues with a backend

What a review does depends on its backend only by what the backend answers. `Dialogue` is the tree
of all that may be said: after each call the talk goes on with the answer. `Scripted` says of an
action that it is such a dialogue, one and the same for every backend, and of all courses that the
dialogue may take that they fulfil a condition. So a backend that gives other answers from some
call on sees the same up to this call.
-/

namespace RouteWatch

variable {σ τ α β : Type}

/-! ### Calls and answers -/

/-- What a call is answered with. -/
def Call.Answer : Call → Type
  | .revisions _ => Revisions
  | .changedFiles _ => List Token
  | .content _ _ => String
  | .diff _ _ => String
  | .annotations _ => List Annotation
  | .create _ _ => Token
  | .requestChanges _ _ => Unit
  | .ensureLabel _ _ => Unit

/-- The call of a backend. -/
def Backend.ask (b : Backend σ) : (call : Call) → Act σ call.Answer
  | .revisions change => b.revisions change
  | .changedFiles change => b.changedFiles change
  | .content path ref => b.content path ref
  | .diff path revisions => b.diff path revisions
  | .annotations change => b.annotations change
  | .create change draft => b.create change draft
  | .requestChanges change body => b.requestChanges change body
  | .ensureLabel change name => b.ensureLabel change name

/-- A call and what it was answered. -/
structure Reply where
  call : Call
  answer : Except Failure call.Answer

/-- What is counted of a run: its pauses and its calls with their answers. -/
inductive Step where
  | slept (time : Seconds)
  | heard (reply : Reply)

/-- The event of a step. -/
def Step.event : Step → Event
  | .slept time => .slept time
  | .heard reply => .called reply.call

/-- The event is one of a step. -/
def Event.isStep : Event → Bool
  | .slept _ | .called _ => true
  | _ => false

/-- The event is the creation of an annotation. -/
def Event.isCreation : Event → Bool
  | .called (.create _ _) => true
  | _ => false

/-- The step of an event that is no call. -/
def Event.rest : Event → List Step
  | .slept time => [.slept time]
  | _ => []

theorem Event.filter_isStep {e : Event} (h : ∀ call, e ≠ .called call) :
    [e].filter Event.isStep = e.rest.map Step.event := by
  cases e with
  | called call => exact absurd rfl (h call)
  | slept time => rfl
  | _ => rfl

namespace Act

variable {a : Act σ α}

/-- What follows on an action goes by its answer. -/
theorem bind_eq_attempt_bind (f : α → Act σ β) :
    a >>= f = a.attempt >>= fun x ↦
      match x with
      | .ok v => f v
      | .error e => fail e := by
  funext s
  show andThen a f s = andThen a.attempt _ s
  unfold andThen attempt
  rcases a s with ⟨_ | v, s', trace⟩
  · exact congrArg _ (List.append_nil trace).symm
  · rfl

theorem recover_eq_attempt_bind (f : Failure → Act σ α) :
    a.recover f = a.attempt >>= fun x ↦
      match x with
      | .ok v => pure v
      | .error e => f e := by
  funext s
  show recover a f s = andThen a.attempt _ s
  unfold andThen attempt recover
  rcases a s with ⟨_ | v, s', trace⟩
  · rfl
  · exact congrArg _ (List.append_nil trace).symm

end Act

/-- An action of which nothing can be seen but that it was called. -/
def Act.heardAs (call : Call) (a : Act σ α) : Act σ α := fun s ↦
  ⟨(a.run s).answer, (a.run s).state, [.called call]⟩

/-- The backend with each call of it to be seen, and nothing of how the call is done. -/
def Backend.observed (b : Backend σ) : Backend σ where
  revisions change := (b.revisions change).heardAs (.revisions change)
  changedFiles change := (b.changedFiles change).heardAs (.changedFiles change)
  content path ref := (b.content path ref).heardAs (.content path ref)
  diff path revisions := (b.diff path revisions).heardAs (.diff path revisions)
  annotations change := (b.annotations change).heardAs (.annotations change)
  create change draft := (b.create change draft).heardAs (.create change draft)
  requestChanges change body := (b.requestChanges change body).heardAs (.requestChanges change body)
  ensureLabel change name := (b.ensureLabel change name).heardAs (.ensureLabel change name)

theorem Backend.observed_ask (b : Backend σ) (call : Call) :
    b.observed.ask call = (b.ask call).heardAs call := by
  cases call <;> rfl

/-- The steps are done with the backend: each call is answered as they say, from one state to the
next. -/
inductive Backend.Plays (b : Backend σ) : σ → List Step → σ → Prop where
  | nil (s : σ) : b.Plays s [] s
  | slept {s s' : σ} {steps : List Step} (time : Seconds) (rest : b.Plays s steps s') :
      b.Plays s (.slept time :: steps) s'
  | heard {s s' : σ} {steps : List Step} (call : Call)
      (rest : b.Plays ((b.ask call).run s).state steps s') :
      b.Plays s (.heard ⟨call, ((b.ask call).run s).answer⟩ :: steps) s'

theorem Backend.Plays.of_append {b : Backend σ} {s s' : σ} {steps rest : List Step}
    (h : b.Plays s (steps ++ rest) s') : ∃ t, b.Plays s steps t ∧ b.Plays t rest s' := by
  induction steps generalizing s with
  | nil => exact ⟨s, .nil s, h⟩
  | cons step steps ih =>
    cases h with
    | slept time h =>
      obtain ⟨t, hsteps, hrest⟩ := ih h
      exact ⟨t, .slept time hsteps, hrest⟩
    | heard call h =>
      obtain ⟨t, hsteps, hrest⟩ := ih h
      exact ⟨t, .heard call hsteps, hrest⟩

/-! ### Dialogues -/

/-- All that may be said with a backend, by what it answers. -/
inductive Dialogue (α : Type) where
  | ends (answer : Except Failure α)
  | shows (e : Event) (h : ∀ call, e ≠ .called call) (next : Dialogue α)
  | asks (call : Call) (next : Except Failure call.Answer → Dialogue α)

namespace Dialogue

/-- The dialogue with a backend. -/
def play (b : Backend σ) : Dialogue α → Act σ α
  | ends x => Act.ofExcept x
  | shows e _ next => fun s ↦
    let o := (next.play b).run s
    ⟨o.answer, o.state, e :: o.trace⟩
  | asks call next => fun s ↦
    let heard := (b.ask call).run s
    let o := ((next heard.answer).play b).run heard.state
    ⟨o.answer, o.state, .called call :: o.trace⟩

/-- The steps of the dialogue with a backend. -/
def steps (b : Backend σ) : Dialogue α → σ → List Step
  | ends _, _ => []
  | shows e _ next, s => e.rest ++ next.steps b s
  | asks call next, s =>
    let heard := (b.ask call).run s
    .heard ⟨call, heard.answer⟩ :: (next heard.answer).steps b heard.state

/-- Every course of the dialogue fulfils a condition on its steps and its end. -/
def Fulfils : Dialogue α → (List Step → Except Failure α → Prop) → Prop
  | ends x, post => post [] x
  | shows e _ next, post => next.Fulfils fun steps x ↦ post (e.rest ++ steps) x
  | asks call next, post => ∀ answer,
    (next answer).Fulfils fun steps x ↦ post (.heard ⟨call, answer⟩ :: steps) x

/-- One dialogue and then another, which depends on the end of the first. -/
def andThen (f : Except Failure α → Dialogue β) : Dialogue α → Dialogue β
  | ends x => f x
  | shows e h next => shows e h (next.andThen f)
  | asks call next => asks call fun answer ↦ (next answer).andThen f

variable {d : Dialogue α} {post post' : List Step → Except Failure α → Prop}

theorem Fulfils.imp (h : d.Fulfils post) (himp : ∀ steps x, post steps x → post' steps x) :
    d.Fulfils post' := by
  induction d generalizing post post' with
  | ends x => exact himp _ _ h
  | shows e _ next ih => exact ih h fun steps x ↦ himp _ _
  | asks call next ih => exact fun answer ↦ ih answer (h answer) fun steps x ↦ himp _ _

theorem fulfils_andThen {f : Except Failure α → Dialogue β}
    {post : List Step → Except Failure β → Prop} :
    (d.andThen f).Fulfils post ↔
      d.Fulfils fun steps x ↦ (f x).Fulfils fun rest y ↦ post (steps ++ rest) y := by
  induction d generalizing post with
  | ends x => exact Iff.rfl
  | shows e _ next ih =>
    simp only [andThen, Fulfils, ih, List.append_assoc]
  | asks call next ih =>
    simp only [andThen, Fulfils, ih, List.cons_append]

theorem play_andThen (b : Backend σ) (f : Except Failure α → Dialogue β) :
    (d.andThen f).play b = (d.play b).attempt >>= fun x ↦ (f x).play b := by
  funext s
  induction d generalizing s with
  | ends x => cases x <;> rfl
  | shows e _ next ih =>
    simp only [andThen, play, Act.run, ih]
    rfl
  | asks call next ih =>
    simp only [andThen, play, Act.run, ih]
    rfl

/-- The steps of a dialogue are what can be seen of it, and are done with the backend. -/
theorem plays_steps (d : Dialogue α) (b : Backend σ) (s : σ) :
    b.Plays s (d.steps b s) ((d.play b).run s).state ∧
      ((d.play b).run s).trace.filter Event.isStep = (d.steps b s).map Step.event := by
  induction d generalizing s with
  | ends x => cases x <;> exact ⟨.nil s, rfl⟩
  | shows e h next ih =>
    obtain ⟨hplays, hseen⟩ := ih s
    constructor
    · cases e <;> first | exact .slept _ hplays | exact hplays
    · show ([e] ++ ((next.play b).run s).trace).filter Event.isStep = _
      rw [List.filter_append, Event.filter_isStep h, hseen, steps, List.map_append]
  | asks call next ih =>
    obtain ⟨hplays, hseen⟩ := ih ((b.ask call).run s).answer ((b.ask call).run s).state
    exact ⟨.heard call hplays, congrArg (Event.called call :: ·) hseen⟩

/-- What holds of all courses of a dialogue holds of the one that it takes. -/
theorem Fulfils.steps (h : d.Fulfils post) (b : Backend σ) (s : σ) :
    post (d.steps b s) ((d.play b).run s).answer := by
  induction d generalizing post s with
  | ends x => cases x <;> exact h
  | shows e _ next ih => exact ih h s
  | asks call next ih => exact ih _ (h _) _

/-- A backend that answers as another one does up to a call hears the same up to it. -/
theorem exists_steps_eq {b : Backend σ} {b' : Backend τ} {s : σ} {s' t' : τ}
    {before after : List Step} {reply : Reply} (h : d.steps b s = before ++ .heard reply :: after)
    (hplays : b'.Plays s' before t') :
    ∃ after', d.steps b' s' =
      before ++ .heard ⟨reply.call, ((b'.ask reply.call).run t').answer⟩ :: after' := by
  induction d generalizing before s s' with
  | ends x => exact absurd h.symm (List.append_ne_nil_of_right_ne_nil _ (List.cons_ne_nil _ _))
  | shows e he next ih =>
    cases e with
    | slept time =>
      cases before with
      | nil => cases h
      | cons step before =>
        obtain ⟨rfl, hrest⟩ := List.cons.inj h
        cases hplays with
        | slept _ hplays =>
          obtain ⟨after', hsteps⟩ := ih hrest hplays
          exact ⟨after', congrArg (Step.slept time :: ·) hsteps⟩
    | called call => exact absurd rfl (he call)
    | _ => exact ih h hplays
  | asks call next ih =>
    cases before with
    | nil =>
      obtain ⟨hstep, -⟩ := List.cons.inj h
      cases hplays
      obtain rfl := Step.heard.inj hstep
      exact ⟨_, rfl⟩
    | cons step before =>
      obtain ⟨rfl, hrest⟩ := List.cons.inj h
      generalize hanswer : ((b.ask call).run s).answer = answer at hplays hrest
      cases hplays with
      | heard _ hplays =>
        obtain ⟨after', hsteps⟩ := ih _ hrest hplays
        exact ⟨after', congrArg (Step.heard _ :: ·) hsteps⟩

end Dialogue

/-! ### Actions that are dialogues -/

/-- Whatever its backend, the action is one and the same dialogue, all courses of which fulfil a
condition. -/
def Scripted (a : (σ : Type) → Backend σ → Act σ α)
    (post : List Step → Except Failure α → Prop) : Prop :=
  ∃ d : Dialogue α, d.Fulfils post ∧ ∀ (σ : Type) (b : Backend σ), a σ b.observed = d.play b

variable {a : (σ : Type) → Backend σ → Act σ α} {post post' : List Step → Except Failure α → Prop}

theorem Scripted.imp (h : Scripted a post) (himp : ∀ steps x, post steps x → post' steps x) :
    Scripted a post' := by
  obtain ⟨d, hd, hplay⟩ := h
  exact ⟨d, hd.imp himp, hplay⟩

theorem scripted_ofExcept {x : Except Failure α} (h : post [] x) :
    Scripted (fun _ _ ↦ Act.ofExcept x) post :=
  ⟨.ends x, h, fun _ _ ↦ rfl⟩

theorem scripted_pure {v : α} (h : post [] (.ok v)) : Scripted (fun _ _ ↦ pure v) post :=
  scripted_ofExcept h

theorem scripted_fail {e : Failure} (h : post [] (.error e)) :
    Scripted (fun _ _ ↦ Act.fail e) post :=
  scripted_ofExcept h

/-- What is asked is seen with its answer. -/
private theorem scripted_ask (call : Call) :
    Scripted (fun _ b ↦ b.ask call) fun steps x ↦ steps = [.heard ⟨call, x⟩] := by
  refine ⟨.asks call .ends, fun _ ↦ rfl, fun σ b ↦ (b.observed_ask call).trans ?_⟩
  funext s
  simp only [Dialogue.play, Act.heardAs]
  cases ((b.ask call).run s).answer <;> rfl

theorem scripted_revisions (change : Token) :
    Scripted (fun _ b ↦ b.revisions change) fun steps x ↦
      steps = [.heard ⟨.revisions change, x⟩] :=
  scripted_ask (.revisions change)

theorem scripted_changedFiles (change : Token) :
    Scripted (fun _ b ↦ b.changedFiles change) fun steps x ↦
      steps = [.heard ⟨.changedFiles change, x⟩] :=
  scripted_ask (.changedFiles change)

theorem scripted_content (path : String) (ref : Token) :
    Scripted (fun _ b ↦ b.content path ref) fun steps x ↦
      steps = [.heard ⟨.content path ref, x⟩] :=
  scripted_ask (.content path ref)

theorem scripted_diff (path : String) (revisions : Revisions) :
    Scripted (fun _ b ↦ b.diff path revisions) fun steps x ↦
      steps = [.heard ⟨.diff path revisions, x⟩] :=
  scripted_ask (.diff path revisions)

theorem scripted_annotations (change : Token) :
    Scripted (fun _ b ↦ b.annotations change) fun steps x ↦
      steps = [.heard ⟨.annotations change, x⟩] :=
  scripted_ask (.annotations change)

theorem scripted_create (change : Token) (d : Draft) :
    Scripted (fun _ b ↦ b.create change d) fun steps x ↦
      steps = [.heard ⟨.create change d, x⟩] :=
  scripted_ask (.create change d)

theorem scripted_requestChanges (change : Token) (body : String) :
    Scripted (fun _ b ↦ b.requestChanges change body) fun steps x ↦
      steps = [.heard ⟨.requestChanges change body, x⟩] :=
  scripted_ask (.requestChanges change body)

theorem scripted_ensureLabel (change : Token) (name : String) :
    Scripted (fun _ b ↦ b.ensureLabel change name) fun steps x ↦
      steps = [.heard ⟨.ensureLabel change name, x⟩] :=
  scripted_ask (.ensureLabel change name)

/-- An event that is no step may come first. -/
private theorem Scripted.after_quiet {e : Event} (h : Scripted a post)
    (hcall : ∀ call, e ≠ .called call) (hrest : e.rest = []) :
    Scripted (fun σ b ↦ Act.emit e >>= fun _ ↦ a σ b) post := by
  obtain ⟨d, hd, hplay⟩ := h
  refine ⟨.shows e hcall d, ?_, fun σ b ↦ congrArg (Act.emit e >>= fun _ ↦ ·) (hplay σ b)⟩
  rw [Dialogue.Fulfils, hrest]
  exact hd

/-- A line of output may come first. -/
theorem Scripted.after_print (line : String) (h : Scripted a post) :
    Scripted (fun σ b ↦ Act.print line >>= fun _ ↦ a σ b) post :=
  h.after_quiet (fun _ h ↦ nomatch h) rfl

/-- A warning may come first. -/
theorem Scripted.after_warn (line : String) (h : Scripted a post) :
    Scripted (fun σ b ↦ Act.warn line >>= fun _ ↦ a σ b) post :=
  h.after_quiet (fun _ h ↦ nomatch h) rfl

/-- A pause may come first. -/
theorem Scripted.after_sleep (time : Seconds)
    (h : Scripted a fun steps x ↦ post (.slept time :: steps) x) :
    Scripted (fun σ b ↦ Act.emit (.slept time) >>= fun _ ↦ a σ b) post := by
  obtain ⟨d, hd, hplay⟩ := h
  exact ⟨.shows (.slept time) (fun _ h ↦ nomatch h) d, hd,
    fun σ b ↦ congrArg (Act.emit (.slept time) >>= fun _ ↦ ·) (hplay σ b)⟩

/-- Two actions in a row, where the second one is also told how the first one failed. -/
theorem Scripted.attempt_bind {f : Except Failure α → (σ : Type) → Backend σ → Act σ β}
    {post' : List Step → Except Failure β → Prop} (ha : Scripted a post)
    (hf : ∀ x, Scripted (f x) fun rest y ↦ ∀ steps, post steps x → post' (steps ++ rest) y) :
    Scripted (fun σ b ↦ (a σ b).attempt >>= fun x ↦ f x σ b) post' := by
  obtain ⟨d, hd, hplay⟩ := ha
  obtain ⟨g, hg⟩ := Classical.axiomOfChoice hf
  refine ⟨d.andThen g, Dialogue.fulfils_andThen.mpr (hd.imp fun steps x hx ↦ ?_), fun σ b ↦ ?_⟩
  · exact (hg x).1.imp fun rest y hy ↦ hy steps hx
  · show (a σ b.observed).attempt >>= (fun x ↦ f x σ b.observed) = (d.andThen g).play b
    rw [d.play_andThen, hplay]
    congr 1
    funext x
    exact (hg x).2 σ b

/-- Two actions in a row. -/
theorem Scripted.bind {f : α → (σ : Type) → Backend σ → Act σ β}
    {post' : List Step → Except Failure β → Prop} (ha : Scripted a post)
    (herror : ∀ steps e, post steps (.error e) → post' steps (.error e))
    (hf : ∀ v, Scripted (f v) fun rest y ↦ ∀ steps, post steps (.ok v) → post' (steps ++ rest) y) :
    Scripted (fun σ b ↦ a σ b >>= fun v ↦ f v σ b) post' := by
  have hattempt : Scripted (fun σ b ↦ (a σ b).attempt >>= fun x ↦
      match x with
      | .ok v => f v σ b
      | .error e => Act.fail e) post' := by
    apply ha.attempt_bind
    rintro (e | v)
    · exact scripted_fail fun steps hsteps ↦ by
        rw [List.append_nil]
        exact herror steps e hsteps
    · exact hf v
  simp only [← Act.bind_eq_attempt_bind] at hattempt
  exact hattempt

/-- An action, and another in place of its failure. -/
theorem Scripted.recover {f : Failure → (σ : Type) → Backend σ → Act σ α} (ha : Scripted a post)
    (hok : ∀ steps v, post steps (.ok v) → post' steps (.ok v))
    (hf : ∀ e, Scripted (f e) fun rest y ↦
      ∀ steps, post steps (.error e) → post' (steps ++ rest) y) :
    Scripted (fun σ b ↦ (a σ b).recover fun e ↦ f e σ b) post' := by
  have hattempt : Scripted (fun σ b ↦ (a σ b).attempt >>= fun x ↦
      match x with
      | .ok v => pure v
      | .error e => f e σ b) post' := by
    apply ha.attempt_bind
    rintro (e | v)
    · exact hf e
    · exact scripted_pure fun steps hsteps ↦ by
        rw [List.append_nil]
        exact hok steps v hsteps
  simp only [← Act.recover_eq_attempt_bind] at hattempt
  exact hattempt

end RouteWatch
