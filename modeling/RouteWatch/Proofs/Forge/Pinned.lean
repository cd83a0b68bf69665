import RouteWatch.Proofs.Forge.Memo

/-!
# A client works on one snapshot

Whatever is asked of a client and whatever is replied: revisions and contents that have been read
are given again without a request, also where the forge would answer otherwise by now, annotations
are created at the head that was read first, and what could not be read is asked for again. A diff
is made of the contents that are read for its two revisions.
-/

namespace RouteWatch.Forge

/-- What is done with a client: it is asked something, or its session is opened or closed. -/
inductive ClientStep where
  | ask (call : Call)
  | enter
  | leave

namespace Client

/-- A step, whose failure stops nothing. -/
def perform (c : Client) : ClientStep → Act Link Unit
  | .ask call => do let _ ← (c.backend.ask call).attempt
  | .enter => c.openSession
  | .leave => closeSession

/-- Steps in a row. -/
def performAll (c : Client) : List ClientStep → Act Link Unit
  | [] => pure ()
  | step :: steps => do
    c.perform step
    c.performAll steps

/-- The state of a client after some steps. -/
def after (c : Client) (l : Link) (steps : List ClientStep) : Link :=
  ((c.performAll steps).run l).state

/-- The request that creates an annotation at a commit. -/
def annotationRequest (c : Client) (change : Token) (d : Draft) (commit : Token) : Request :=
  ⟨.post, c.url ("pulls/" ++ change.plain ++ "/comments"), none, some (.object [
    ("body", .text d.body), ("commit_id", commit), ("path", .text d.path), ("line", .int d.line),
    ("side", .text d.side.name)]), none⟩

/-- The diff of a file from a text on, which is what the file was in the base revision. -/
def diffFrom (c : Client) (text path : String) (head : Token) : Act Link String := do
  return Diff.unified text (← c.content path head) path 0

/-- The diff of a file up to a text, which is what the file is in the head revision. -/
def diffTo (c : Client) (text path : String) (base : Token) : Act Link String := do
  return Diff.unified (← c.baseContent path base) text path 0

end Client

/-- The statuses of final responses: a lower one is only given while a request is worked on. -/
def Reply.IsFinal : Reply → Prop
  | .response status _ => 200 ≤ status
  | .broken _ => True

/-- The run ended in a response that says that there is nothing at the URL. -/
def EndedInNotFound {α : Type} (l : Link) (o : Outcome Link α) : Prop :=
  ∃ q content, (exchanges l.replies (requestsOf o.trace)).getLast? =
    some (q, .response 404 content)

/-- A client works on one snapshot. -/
structure Client.Pins (c : Client) : Prop where
  /-- Revisions that were read are read again without a request, and annotations are created at
  their head. -/
  revisions : ∀ {l l₁ change r trace}, (c.revisions change).run l = ⟨.ok r, l₁, trace⟩ →
    ∀ steps, (c.revisions change).run (c.after l₁ steps) = ⟨.ok r, c.after l₁ steps, []⟩ ∧
      ∀ d, requestsOf ((c.create change d).run (c.after l₁ steps)).trace =
        if (c.after l₁ steps).session = .closed then []
        else [c.annotationRequest change d r.head]
  /-- A content that was read is read again without a request, and diffs are made with it. -/
  contents : ∀ {l l₁ path ref text trace}, (c.content path ref).run l = ⟨.ok text, l₁, trace⟩ →
    ∀ steps, (c.content path ref).run (c.after l₁ steps) = ⟨.ok text, c.after l₁ steps, []⟩ ∧
      (∀ head, (c.diff path ⟨ref, head⟩).run (c.after l₁ steps) =
        (c.diffFrom text path head).run (c.after l₁ steps)) ∧
      ∀ base, (c.diff path ⟨base, ref⟩).run (c.after l₁ steps) =
        (c.diffTo text path base).run (c.after l₁ steps)
  /-- What is remembered stays as it is. -/
  kept : ∀ l steps,
    (∀ path key text, l.contentOf? path key = some text →
      (c.after l steps).contentOf? path key = some text) ∧
    ∀ key r, l.revisionsOf? key = some r → (c.after l steps).revisionsOf? key = some r
  /-- What is remembered was the answer to a request for it that succeeded. -/
  answered : ∀ replies session steps,
    (∀ path key text, (c.after (.fresh replies session) steps).contentOf? path key = some text →
      ∃ ref status content, lookupKey ref = .ok key ∧
        (c.contentRequest path ref, .response status content) ∈ exchanges replies
          (requestsOf ((c.performAll steps).run (.fresh replies session)).trace) ∧
        status < 300 ∧ ((∀ reply ∈ replies, reply.IsFinal) → 200 ≤ status) ∧
        content.textOf = text) ∧
    ∀ key r, (c.after (.fresh replies session) steps).revisionsOf? key = some r →
      ∃ change status data, lookupKey change = .ok key ∧
        (c.revisionsRequest change, .response status (.json data)) ∈ exchanges replies
          (requestsOf ((c.performAll steps).run (.fresh replies session)).trace) ∧
        status < 300 ∧ ((∀ reply ∈ replies, reply.IsFinal) → 200 ≤ status) ∧
        revisionsOf data = .ok r
  /-- A content that cannot be read is not remembered, -/
  contentFailed : ∀ {l l₁ path ref e trace}, (c.content path ref).run l = ⟨.error e, l₁, trace⟩ →
    l₁.contents = l.contents ∧ l₁.revisions = l.revisions ∧
      ∀ key, lookupKey ref = .ok key → l₁.contentOf? path key = none
  /-- and one that is not remembered is asked for. -/
  contentAsked : ∀ {l path ref key}, lookupKey ref = .ok key → l.contentOf? path key = none →
    l.session ≠ .closed → ∃ rest, requestsOf ((c.content path ref).run l).trace =
      c.contentRequest path ref :: rest
  /-- Revisions that cannot be read are not remembered, -/
  revisionsFailed : ∀ {l l₁ change e trace}, (c.revisions change).run l = ⟨.error e, l₁, trace⟩ →
    l₁.contents = l.contents ∧ l₁.revisions = l.revisions ∧
      ∀ key, lookupKey change = .ok key → l₁.revisionsOf? key = none
  /-- and ones that are not remembered are asked for. -/
  revisionsAsked : ∀ {l change key}, lookupKey change = .ok key → l.revisionsOf? key = none →
    l.session ≠ .closed → ∃ rest, requestsOf ((c.revisions change).run l).trace =
      c.revisionsRequest change :: rest
  /-- A diff is made of what reading the file gives in both revisions, where the text is empty if
  reading it in the base revision ends in a response with status 404. Any other failure ends the
  diff. -/
  diff : ∀ l path base head,
    (∀ text, ((c.content path base).run l).answer = .ok text →
      (c.diff path ⟨base, head⟩).run l =
        (do let _ ← (c.content path base).attempt; c.diffFrom text path head).run l) ∧
    (EndedInNotFound l ((c.content path base).run l) →
      (c.diff path ⟨base, head⟩).run l =
        (do let _ ← (c.content path base).attempt; c.diffFrom "" path head).run l) ∧
    ∀ e, ((c.content path base).run l).answer = .error e →
      ¬EndedInNotFound l ((c.content path base).run l) →
        (c.diff path ⟨base, head⟩).run l = ⟨.error e, ((c.content path base).run l).state,
          ((c.content path base).run l).trace⟩

variable {c : Client}

theorem serves_perform (step : ClientStep) : c.Serves (c.perform step) := by
  cases step with
  | ask call => exact (serves_ask call).attempt.bind fun _ ↦ serves_pure ()
  | enter =>
    intro l
    obtain ⟨replies, session, contents, revisions⟩ := l
    cases session <;>
      exact ⟨rfl, fun _ _ _ ↦ id, fun _ _ ↦ id, fun _ _ _ ↦ .inl, fun _ _ ↦ .inl⟩
  | leave =>
    intro l
    obtain ⟨replies, session, contents, revisions⟩ := l
    cases session <;>
      exact ⟨rfl, fun _ _ _ ↦ id, fun _ _ ↦ id, fun _ _ _ ↦ .inl, fun _ _ ↦ .inl⟩

theorem serves_performAll (steps : List ClientStep) : c.Serves (c.performAll steps) := by
  induction steps with
  | nil => exact serves_pure ()
  | cons step steps ih => exact (serves_perform step).bind fun _ ↦ ih

/-! ### Reading again -/

variable {l l₁ : Link} {trace : List Event}

theorem served_after (c : Client) (l : Link) (steps : List ClientStep) :
    Served c l ((c.performAll steps).run l).trace (c.after l steps) :=
  serves_performAll steps l

/-- A content that was read is remembered. -/
theorem contentOf?_of_run {path text : String} {ref : Token}
    (h : (c.content path ref).run l = ⟨.ok text, l₁, trace⟩) :
    ∃ key, Client.lookupKey ref = .ok key ∧ l₁.contentOf? path key = some text := by
  cases hkey : Client.lookupKey ref with
  | error e =>
    rw [run_content_keyless hkey] at h
    cases h
  | ok key =>
    refine ⟨key, rfl, ?_⟩
    cases hl : l.contentOf? path key with
    | some known =>
      rw [run_content_known hkey hl] at h
      cases h
      exact hl
    | none =>
      rw [run_content_unknown hkey hl] at h
      split at h
      · cases h
        rw [contentOf?_remembered, if_pos rfl]
      · cases h

/-- Revisions that were read are remembered. -/
theorem revisionsOf?_of_run {change : Token} {r : Revisions}
    (h : (c.revisions change).run l = ⟨.ok r, l₁, trace⟩) :
    ∃ key, Client.lookupKey change = .ok key ∧ l₁.revisionsOf? key = some r := by
  cases hkey : Client.lookupKey change with
  | error e =>
    rw [run_revisions_keyless hkey] at h
    cases h
  | ok key =>
    refine ⟨key, rfl, ?_⟩
    cases hl : l.revisionsOf? key with
    | some known =>
      rw [run_revisions_known hkey hl] at h
      cases h
      exact hl
    | none =>
      rw [run_revisions_unknown hkey hl] at h
      split at h
      · split at h
        · cases h
          rw [revisionsOf?_remembered, if_pos rfl]
        · cases h
      · cases h

/-! ### Failed reads -/

private theorem memos_of_retry {α : Type} {q : Request} {f : Content → Except Failure α}
    (attempts : Int) (l : Link) :
    ((retry attempts (readOnce q f)).run l).state.contents = l.contents ∧
      ((retry attempts (readOnce q f)).run l).state.revisions = l.revisions := by
  by_cases hl : l.session = .closed
  · rw [run_retry_closed attempts hl]
    exact ⟨rfl, rfl⟩
  · obtain ⟨sent, hread⟩ := run_retry_open (q := q) (f := f) attempts hl
    rw [hread.state]
    exact ⟨rfl, rfl⟩

private theorem memos_of_fetchContent (c : Client) (path : String) (ref : Token) (l : Link) :
    ((c.fetchContent path ref).run l).state.contents = l.contents ∧
      ((c.fetchContent path ref).run l).state.revisions = l.revisions := by
  rw [fetchContent_eq, run_recover_fail]
  exact memos_of_retry c.config.maxRetries l

private theorem memos_of_content_error {path : String} {ref : Token} {e : Failure}
    (h : (c.content path ref).run l = ⟨.error e, l₁, trace⟩) :
    l₁.contents = l.contents ∧ l₁.revisions = l.revisions ∧
      ∀ key, Client.lookupKey ref = .ok key → l₁.contentOf? path key = none := by
  cases hkey : Client.lookupKey ref with
  | error e =>
    rw [run_content_keyless hkey] at h
    cases h
    exact ⟨rfl, rfl, nofun⟩
  | ok key =>
    cases hl : l.contentOf? path key with
    | some known =>
      rw [run_content_known hkey hl] at h
      cases h
    | none =>
      obtain ⟨hcontents, hrevisions⟩ := memos_of_fetchContent c path ref l
      rw [run_content_unknown hkey hl] at h
      split at h
      · cases h
      · next hrun =>
        rw [hrun] at hcontents hrevisions
        cases h
        refine ⟨hcontents, hrevisions, ?_⟩
        rintro _ ⟨⟩
        rw [Link.contentOf?, hcontents]
        exact hl

private theorem memos_of_revisions_error {change : Token} {e : Failure}
    (h : (c.revisions change).run l = ⟨.error e, l₁, trace⟩) :
    l₁.contents = l.contents ∧ l₁.revisions = l.revisions ∧
      ∀ key, Client.lookupKey change = .ok key → l₁.revisionsOf? key = none := by
  cases hkey : Client.lookupKey change with
  | error e =>
    rw [run_revisions_keyless hkey] at h
    cases h
    exact ⟨rfl, rfl, nofun⟩
  | ok key =>
    cases hl : l.revisionsOf? key with
    | some known =>
      rw [run_revisions_known hkey hl] at h
      cases h
    | none =>
      have hmemos : ((c.getJson (c.url ("pulls/" ++ change.plain)) none).run l).state.contents =
          l.contents ∧
            ((c.getJson (c.url ("pulls/" ++ change.plain)) none).run l).state.revisions =
              l.revisions := memos_of_retry c.config.maxRetries l
      obtain ⟨hcontents, hrevisions⟩ := hmemos
      have hnone {l₂ : Link} (h : l₂.revisions = l.revisions) (key' : Token)
          (hkey' : (.ok key : Except Failure Token) = .ok key') : l₂.revisionsOf? key' = none := by
        cases hkey'
        rw [Link.revisionsOf?, h]
        exact hl
      rw [run_revisions_unknown hkey hl] at h
      split at h
      · next hrun =>
        rw [hrun] at hcontents hrevisions
        split at h
        · cases h
        · cases h
          exact ⟨hcontents, hrevisions, hnone hrevisions⟩
      · next hrun =>
        rw [hrun] at hcontents hrevisions
        cases h
        exact ⟨hcontents, hrevisions, hnone hrevisions⟩

private theorem content_asked {path : String} {ref key : Token}
    (hkey : Client.lookupKey ref = .ok key) (hl : l.contentOf? path key = none)
    (hopen : l.session ≠ .closed) :
    ∃ rest, requestsOf ((c.content path ref).run l).trace = c.contentRequest path ref :: rest := by
  obtain ⟨sent, hfetched⟩ := run_fetchContent_open c path ref hopen
  refine ⟨List.replicate sent (c.contentRequest path ref), ?_⟩
  rw [← List.replicate_succ, ← hfetched.requests, run_content_unknown hkey hl]
  split
  · next hrun => rw [hrun]
  · next hrun => rw [hrun]

private theorem revisions_asked {change key : Token} (hkey : Client.lookupKey change = .ok key)
    (hl : l.revisionsOf? key = none) (hopen : l.session ≠ .closed) :
    ∃ rest, requestsOf ((c.revisions change).run l).trace = c.revisionsRequest change :: rest := by
  obtain ⟨sent, hread⟩ := run_retry_open (q := c.revisionsRequest change) (f := Content.valueOf)
    c.config.maxRetries hopen
  have hrequests : requestsOf
      ((c.getJson (c.url ("pulls/" ++ change.plain)) none).run l).trace =
        List.replicate (sent + 1) (c.revisionsRequest change) := hread.requests
  refine ⟨List.replicate sent (c.revisionsRequest change), ?_⟩
  rw [← List.replicate_succ, ← hrequests, run_revisions_unknown hkey hl]
  split
  · next hrun =>
    rw [hrun]
    split
    · rfl
    · rfl
  · next hrun => rw [hrun]

/-! ### Diffs -/

private theorem not_endedInNotFound {α : Type} {o : Outcome Link α}
    (h : requestsOf o.trace = []) : ¬EndedInNotFound l o := by
  rintro ⟨q, content, hlast⟩
  rw [h] at hlast
  cases hlast

private theorem endedInNotFound_fetchContent_iff (path : String) (ref : Token)
    (hopen : l.session ≠ .closed) :
    EndedInNotFound l ((c.fetchContent path ref).run l) ↔ ∃ t : Trouble,
      ((c.fetchContent path ref).run l).answer = .error (.trouble t) ∧ t.kind = .read := by
  obtain ⟨sent, hfetched⟩ := run_fetchContent_open c path ref hopen
  rw [hfetched.ends.missing]
  unfold EndedInNotFound
  rw [hfetched.requests, getLast?_exchanges_replicate]
  constructor
  · rintro ⟨q, content, hlast⟩
    exact ⟨content, (Prod.mk.inj (Option.some.inj hlast)).2⟩
  · rintro ⟨content, hreply⟩
    exact ⟨_, content, by rw [hreply]⟩

/-- Reading a file ends in trouble with reading where it ends in a response with status 404, and
nowhere else. -/
theorem endedInNotFound_content_iff (path : String) (ref : Token) :
    EndedInNotFound l ((c.content path ref).run l) ↔ ∃ t : Trouble,
      ((c.content path ref).run l).answer = .error (.trouble t) ∧ t.kind = .read := by
  cases hkey : Client.lookupKey ref with
  | error e =>
    rw [run_content_keyless hkey]
    refine ⟨fun h ↦ absurd h (not_endedInNotFound rfl), ?_⟩
    rintro ⟨t, ⟨⟩, -⟩
    unfold Client.lookupKey at hkey
    split at hkey <;> cases hkey
  | ok key =>
    cases hl : l.contentOf? path key with
    | some text =>
      rw [run_content_known hkey hl]
      exact ⟨fun h ↦ absurd h (not_endedInNotFound rfl), nofun⟩
    | none =>
      by_cases hopen : l.session = .closed
      · rw [run_content_unknown hkey hl, run_fetchContent_closed c path ref hopen]
        exact ⟨fun h ↦ absurd h (not_endedInNotFound rfl), nofun⟩
      · have hfetch := endedInNotFound_fetchContent_iff (c := c) path ref hopen
        rw [run_content_unknown hkey hl]
        split
        · next hrun =>
          rw [hrun] at hfetch
          exact hfetch
        · next hrun =>
          rw [hrun] at hfetch
          exact hfetch

private theorem run_attempt_bind {α β : Type} {a : Act Link α} {x : Except Failure α}
    (h : a.run l = ⟨x, l₁, trace⟩) (b : Act Link β) :
    (do let _ ← a.attempt; b).run l =
      ⟨(b.run l₁).answer, (b.run l₁).state, trace ++ (b.run l₁).trace⟩ := by
  refine Act.run_bind_ok (v := x) ?_ _
  show Act.attempt a l = _
  unfold Act.run at h
  rw [Act.attempt, h]

private theorem run_diff_ok {path text : String} {base : Token} (head : Token)
    (h : (c.baseContent path base).run l = ⟨.ok text, l₁, trace⟩) :
    (c.diff path ⟨base, head⟩).run l =
      ⟨((c.diffFrom text path head).run l₁).answer, ((c.diffFrom text path head).run l₁).state,
        trace ++ ((c.diffFrom text path head).run l₁).trace⟩ :=
  Act.run_bind_ok h _

private theorem run_diff_of_content {path text : String} {base : Token} (head : Token)
    (h : ((c.content path base).run l).answer = .ok text) :
    (c.diff path ⟨base, head⟩).run l =
      (do let _ ← (c.content path base).attempt; c.diffFrom text path head).run l := by
  rcases hrun : (c.content path base).run l with ⟨x, l₁, trace⟩
  rw [hrun] at h
  dsimp only at h
  subst h
  rw [run_attempt_bind hrun]
  exact run_diff_ok head (Act.run_recover_ok hrun _)

private theorem run_diff_of_missing {path : String} {base : Token} (head : Token)
    (h : EndedInNotFound l ((c.content path base).run l)) :
    (c.diff path ⟨base, head⟩).run l =
      (do let _ ← (c.content path base).attempt; c.diffFrom "" path head).run l := by
  obtain ⟨t, hanswer, hkind⟩ := (endedInNotFound_content_iff path base).mp h
  rcases hrun : (c.content path base).run l with ⟨x, l₁, trace⟩
  rw [hrun] at hanswer
  dsimp only at hanswer
  subst hanswer
  obtain ⟨kind, message, file⟩ := t
  cases hkind
  rw [run_attempt_bind hrun]
  refine run_diff_ok head ((Act.run_recover_error hrun _).trans ?_)
  exact congrArg _ (List.append_nil trace)

private theorem run_diff_of_error {path : String} {base : Token} {e : Failure} (head : Token)
    (h : ((c.content path base).run l).answer = .error e)
    (hfound : ¬EndedInNotFound l ((c.content path base).run l)) :
    (c.diff path ⟨base, head⟩).run l =
      ⟨.error e, ((c.content path base).run l).state, ((c.content path base).run l).trace⟩ := by
  rw [endedInNotFound_content_iff] at hfound
  rcases hrun : (c.content path base).run l with ⟨x, l₁, trace⟩
  rw [hrun] at h hfound
  dsimp only at h
  subst h
  refine Act.run_bind_error ((Act.run_recover_error hrun _).trans ?_) _
  split
  · next t => exact absurd ⟨_, rfl, rfl⟩ hfound
  · exact congrArg _ (List.append_nil trace)

/-! ### Creating annotations -/

/-- What follows an action without a request of its own leaves its requests as they are. -/
private theorem requestsOf_bind {α β : Type} {a : Act Link α} {f : α → Act Link β}
    (hf : ∀ v l, requestsOf ((f v).run l).trace = []) (l : Link) :
    requestsOf ((a >>= f).run l).trace = requestsOf (a.run l).trace := by
  rcases hrun : a.run l with ⟨e | v, l₁, trace⟩
  · rw [Act.run_bind_error hrun]
  · rw [Act.run_bind_ok hrun, requestsOf_append, hf, List.append_nil]

private theorem requestsOf_recover {α : Type} {a : Act Link α} {f : Failure → Act Link α}
    (hf : ∀ e l, requestsOf ((f e).run l).trace = []) (l : Link) :
    requestsOf ((a.recover f).run l).trace = requestsOf (a.run l).trace := by
  rcases hrun : a.run l with ⟨e | v, l₁, trace⟩
  · rw [Act.run_recover_error hrun, requestsOf_append, hf, List.append_nil]
  · rw [Act.run_recover_ok hrun]

private theorem requestsOf_ofExcept {α : Type} (x : Except Failure α) (l : Link) :
    requestsOf ((Act.ofExcept x : Act Link α).run l).trace = [] := by
  rw [run_ofExcept]
  rfl

/-- A value is sent once, where a session is open. -/
private theorem requestsOf_postJson (url : String) (payload : Json) (l : Link) :
    requestsOf ((Client.postJson url payload).run l).trace =
      if l.session = .closed then [] else [⟨.post, url, none, some payload, none⟩] := by
  unfold Client.postJson
  rw [requestsOf_recover, requestsOf_bind]
  · split
    · next hl =>
      rw [run_request_closed hl]
      rfl
    · next hl =>
      obtain ⟨trace, ⟨htrace, -⟩, hrun⟩ :=
        run_request_open (q := ⟨.post, url, none, some payload, none⟩) hl
      rw [hrun]
      exact htrace
  · exact fun content ↦ requestsOf_ofExcept content.valueOf
  · intro e l
    split
    · rfl
    · rfl

/-- Where the revisions of a change are remembered, creating an annotation sends one request, with
the head revision in it. -/
private theorem requestsOf_create {change : Token} {r : Revisions} (d : Draft)
    (h : (c.revisions change).run l = ⟨.ok r, l, []⟩) :
    requestsOf ((c.create change d).run l).trace =
      if l.session = .closed then [] else [c.annotationRequest change d r.head] := by
  unfold Client.create
  rw [Act.run_bind_ok h, List.nil_append]
  dsimp only
  rw [requestsOf_bind, requestsOf_recover, requestsOf_postJson]
  · rfl
  · intro e l
    split
    · rfl
    · rfl
  · exact fun data ↦ requestsOf_ofExcept (Client.fieldOf data "id")

/-! ### One snapshot -/

private theorem run_diff_known_base {path text : String} {base : Token} (head : Token)
    (h : (c.content path base).run l = ⟨.ok text, l, []⟩) :
    (c.diff path ⟨base, head⟩).run l = (c.diffFrom text path head).run l :=
  run_diff_ok head (Act.run_recover_ok h _)

private theorem run_diff_known_head {path text : String} {head : Token} (base : Token)
    (h : ∀ l₁ trace, Served c l trace l₁ → (c.content path head).run l₁ = ⟨.ok text, l₁, []⟩) :
    (c.diff path ⟨base, head⟩).run l = (c.diffTo text path base).run l := by
  have hserved := serves_baseContent path base (c := c) l
  unfold Client.diff Client.diffTo
  rcases hrun : (c.baseContent path base).run l with ⟨e | old, l₁, trace⟩
  · rw [Act.run_bind_error hrun, Act.run_bind_error hrun]
  · rw [hrun] at hserved
    rw [Act.run_bind_ok hrun, Act.run_bind_ok hrun, Act.run_bind_ok (h l₁ trace hserved)]
    rfl

private theorem final_of_exchange {replies : List Reply} {qs : List Request} {q : Request}
    {status : Int} {content : Content} (h : (q, .response status content) ∈ exchanges replies qs)
    (hstatus : status < 300) (hfinal : ∀ reply ∈ replies, reply.IsFinal) : 200 ≤ status := by
  rcases reply_mem_of_exchange h with h | h
  · exact hfinal _ h
  · cases h
    exact absurd hstatus (by decide)

/-- A client works on one snapshot, whatever is asked of it and whatever is replied. -/
theorem Client.pins (c : Client) : c.Pins where
  revisions h steps := by
    obtain ⟨key, hkey, hknown⟩ := revisionsOf?_of_run h
    have hagain := run_revisions_known (c := c) hkey
      ((served_after c _ steps).revisions key _ hknown)
    exact ⟨hagain, fun d ↦ requestsOf_create d hagain⟩
  contents h steps := by
    obtain ⟨key, hkey, hknown⟩ := contentOf?_of_run h
    have hlater := (served_after c _ steps).contents _ key _ hknown
    have hagain := run_content_known (c := c) hkey hlater
    refine ⟨hagain, fun head ↦ run_diff_known_base head hagain, fun base ↦ ?_⟩
    exact run_diff_known_head base fun l₁ trace hserved ↦
      run_content_known hkey (hserved.contents _ key _ hlater)
  kept l steps := ⟨(served_after c l steps).contents, (served_after c l steps).revisions⟩
  answered replies session steps := by
    have hserved := served_after c (.fresh replies session) steps
    constructor
    · intro path key text hl
      rcases hserved.newContents path key text hl with h | h
      · cases h
      · obtain ⟨ref, content, hkey, ⟨status, hstatus, hmem⟩, htext⟩ := h
        exact ⟨ref, status, content, hkey, hmem, hstatus, final_of_exchange hmem hstatus, htext⟩
    · intro key r hl
      rcases hserved.newRevisions key r hl with h | h
      · cases h
      · obtain ⟨change, data, hkey, ⟨status, hstatus, hmem⟩, hdata⟩ := h
        exact ⟨change, status, data, hkey, hmem, hstatus, final_of_exchange hmem hstatus, hdata⟩
  contentFailed := memos_of_content_error
  contentAsked := content_asked
  revisionsFailed := memos_of_revisions_error
  revisionsAsked := revisions_asked
  diff l path base head := ⟨fun _ ↦ run_diff_of_content head, run_diff_of_missing head,
    fun _ ↦ run_diff_of_error head⟩

/-- The description of a change with a head revision. -/
private def describedBy (head : String) : Reply :=
  .response 200 (.json (.object [
    ("base", .object [("sha", .text "b")]), ("head", .object [("sha", .text head)])]))

/-- The head moves on between two calls, and the second one is not told. -/
example :
    (Client.after ⟨{ repository := "o/r" }⟩
      (.fresh [describedBy "h", describedBy "moved"] .lent)
      [.ask (.revisions (.int 7)), .ask (.revisions (.int 7))]).revisionsOf? (.int 7) =
        some ⟨.text "b", .text "h"⟩ := rfl

end RouteWatch.Forge
