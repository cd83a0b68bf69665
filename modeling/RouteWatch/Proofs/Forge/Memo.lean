import RouteWatch.Proofs.Forge.Exchange
import RouteWatch.Proofs.Review.Dialogue

/-!
# What a client remembers

A client remembers the contents and the revisions that it has read. Whatever is done with it,
nothing that it remembers is changed or forgotten, and what is added was the answer to a request for
just that: `Serves` says so of an action, with one rule for each way in which actions are put
together.
-/

namespace RouteWatch.Forge

/-- The request for the content of a file in a revision. -/
def Client.contentRequest (c : Client) (path : String) (ref : Token) : Request :=
  ⟨.get, c.contentUrl path, some [("ref", ref)], none,
    some [("Accept", .text "application/vnd.github.raw+json")]⟩

/-- The request for the revisions of a change. -/
def Client.revisionsRequest (c : Client) (change : Token) : Request :=
  ⟨.get, c.url ("pulls/" ++ change.plain), none, none, none⟩

/-- Among the requests one was replied to with this content, and with success. -/
def Answered (replies : List Reply) (qs : List Request) (q : Request) (content : Content) : Prop :=
  ∃ status, status < 300 ∧ (q, .response status content) ∈ exchanges replies qs

/-- The content of a file that a client remembers. -/
def Link.contentOf? (l : Link) (path : String) (key : Token) : Option String :=
  l.contents.lookup (path, key)

/-- The revisions of a change that a client remembers. -/
def Link.revisionsOf? (l : Link) (key : Token) : Option Revisions := l.revisions.lookup key

/-- A content was read by some requests, for a file and a key. -/
def Client.ReadsContent (c : Client) (replies : List Reply) (qs : List Request) (path : String)
    (key : Token) (text : String) : Prop :=
  ∃ ref content, Client.lookupKey ref = .ok key ∧
    Answered replies qs (c.contentRequest path ref) content ∧ content.textOf = text

/-- Revisions were read by some requests, for a key. -/
def Client.ReadsRevisions (c : Client) (replies : List Reply) (qs : List Request) (key : Token)
    (revisions : Revisions) : Prop :=
  ∃ change data, Client.lookupKey change = .ok key ∧
    Answered replies qs (c.revisionsRequest change) (.json data) ∧
      Client.revisionsOf data = .ok revisions

/-- From one state of a link to another, with the events between them: each request took a reply,
what was remembered still is, and what is remembered now was before or has been read. -/
structure Served (c : Client) (l : Link) (trace : List Event) (l' : Link) : Prop where
  replies : l'.replies = l.replies.drop (requestsOf trace).length
  contents : ∀ path key text, l.contentOf? path key = some text → l'.contentOf? path key = some text
  revisions : ∀ key r, l.revisionsOf? key = some r → l'.revisionsOf? key = some r
  newContents : ∀ path key text, l'.contentOf? path key = some text →
    l.contentOf? path key = some text ∨
      c.ReadsContent l.replies (requestsOf trace) path key text
  newRevisions : ∀ key r, l'.revisionsOf? key = some r →
    l.revisionsOf? key = some r ∨ c.ReadsRevisions l.replies (requestsOf trace) key r

variable {c : Client} {l l' l'' : Link} {trace rest : List Event}

/-! ### One after the other -/

theorem Answered.left {replies : List Reply} {qs : List Request} {q : Request} {content : Content}
    (h : Answered replies qs q content) (more : List Request) :
    Answered replies (qs ++ more) q content := by
  obtain ⟨status, hstatus, hmem⟩ := h
  refine ⟨status, hstatus, ?_⟩
  rw [exchanges_append]
  exact List.mem_append_left _ hmem

theorem Answered.right {replies : List Reply} {more : List Request} {q : Request}
    {content : Content} (qs : List Request)
    (h : Answered (replies.drop qs.length) more q content) :
    Answered replies (qs ++ more) q content := by
  obtain ⟨status, hstatus, hmem⟩ := h
  refine ⟨status, hstatus, ?_⟩
  rw [exchanges_append]
  exact List.mem_append_right _ hmem

/-- Where requests only took their replies, nothing is remembered or forgotten. -/
theorem Served.of_skip (h : l' = l.skip (requestsOf trace).length) : Served c l trace l' := by
  subst h
  exact ⟨rfl, fun _ _ _ ↦ id, fun _ _ ↦ id, fun _ _ _ ↦ .inl, fun _ _ ↦ .inl⟩

theorem Served.append (h : Served c l trace l') (h' : Served c l' rest l'') :
    Served c l (trace ++ rest) l'' where
  replies := by
    rw [h'.replies, h.replies, List.drop_drop, requestsOf_append, List.length_append]
  contents path key text hl := h'.contents path key text (h.contents path key text hl)
  revisions key r hl := h'.revisions key r (h.revisions key r hl)
  newContents path key text hl := by
    rw [requestsOf_append]
    rcases h'.newContents path key text hl with hl | ⟨ref, content, hkey, hanswered, htext⟩
    · rcases h.newContents path key text hl with hl | ⟨ref, content, hkey, hanswered, htext⟩
      · exact .inl hl
      · exact .inr ⟨ref, content, hkey, hanswered.left _, htext⟩
    · rw [h.replies] at hanswered
      exact .inr ⟨ref, content, hkey, hanswered.right _, htext⟩
  newRevisions key r hl := by
    rw [requestsOf_append]
    rcases h'.newRevisions key r hl with hl | ⟨change, data, hkey, hanswered, hdata⟩
    · rcases h.newRevisions key r hl with hl | ⟨change, data, hkey, hanswered, hdata⟩
      · exact .inl hl
      · exact .inr ⟨change, data, hkey, hanswered.left _, hdata⟩
    · rw [h.replies] at hanswered
      exact .inr ⟨change, data, hkey, hanswered.right _, hdata⟩

/-! ### Actions -/

/-- An action keeps what is remembered and adds to it only what it reads. -/
def Client.Serves {α : Type} (c : Client) (a : Act Link α) : Prop :=
  ∀ l, Served c l (a.run l).trace (a.run l).state

section Rules

variable {α β : Type} {a : Act Link α}

theorem serves_pure (v : α) : c.Serves (pure v : Act Link α) := fun _ ↦ .of_skip rfl

theorem serves_fail (e : Failure) : c.Serves (Act.fail e : Act Link α) := fun _ ↦ .of_skip rfl

theorem serves_ofExcept (x : Except Failure α) : c.Serves (Act.ofExcept x : Act Link α) := by
  cases x with
  | ok v => exact serves_pure v
  | error e => exact serves_fail e

theorem serves_state : c.Serves (Act.state : Act Link Link) := fun _ ↦ .of_skip rfl

/-- An event that is no request. -/
theorem serves_emit {e : Event} (he : requestsOf [e] = []) :
    c.Serves (Act.emit e : Act Link Unit) := by
  intro l
  refine .of_skip ?_
  show l = l.skip (requestsOf [e]).length
  rw [he]
  rfl

theorem Client.Serves.bind {f : α → Act Link β} (ha : c.Serves a) (hf : ∀ v, c.Serves (f v)) :
    c.Serves (a >>= f) := by
  intro l
  have h := ha l
  rcases hrun : a.run l with ⟨_ | v, l₁, trace⟩
  · rw [Act.run_bind_error hrun]
    rwa [hrun] at h
  · rw [Act.run_bind_ok hrun]
    rw [hrun] at h
    exact h.append (hf v l₁)

theorem Client.Serves.recover {f : Failure → Act Link α} (ha : c.Serves a)
    (hf : ∀ e, c.Serves (f e)) : c.Serves (a.recover f) := by
  intro l
  have h := ha l
  rcases hrun : a.run l with ⟨e | v, l₁, trace⟩
  · rw [Act.run_recover_error hrun]
    rw [hrun] at h
    exact h.append (hf e l₁)
  · rw [Act.run_recover_ok hrun]
    rwa [hrun] at h

theorem Client.Serves.attempt (ha : c.Serves a) : c.Serves a.attempt := fun l ↦ ha l

end Rules

/-! ### Requests -/

theorem serves_request (q : Request) : c.Serves (Link.request q) := by
  intro l
  by_cases hl : l.session = .closed
  · rw [run_request_closed hl]
    exact .of_skip rfl
  · obtain ⟨trace, ⟨htrace, -⟩, hrun⟩ := run_request_open (q := q) hl
    rw [hrun]
    refine .of_skip ?_
    rw [htrace]
    rfl

theorem serves_retry {α : Type} {a : Act Link α} (attempts : Int) (ha : c.Serves a) :
    c.Serves (retry attempts a) := by
  have tries (attempt left : Nat) : c.Serves (retryFrom a attempt left) := by
    induction left generalizing attempt with
    | zero => exact ha.recover fun e ↦ serves_fail _
    | succ left ih =>
      refine ha.recover fun e ↦ ?_
      cases delayAfter? e with
      | none => exact serves_fail e
      | some delay => exact (serves_emit rfl).bind fun _ ↦ (serves_emit rfl).bind fun _ ↦ ih _
  exact tries 0 _

theorem serves_getJson (url : String) (params : Option Fields) : c.Serves (c.getJson url params) :=
  serves_retry _ ((serves_request _).bind fun _ ↦ serves_ofExcept _)

theorem serves_postJson (url : String) (payload : Json) :
    c.Serves (Client.postJson url payload) := by
  refine ((serves_request _).bind fun _ ↦ serves_ofExcept _).recover fun e ↦ ?_
  split
  · exact serves_fail _
  · exact serves_fail _

theorem serves_pagesFrom (url : String) (page fuel : Nat) :
    c.Serves (c.pagesFrom url page fuel) := by
  induction fuel generalizing page with
  | zero => exact serves_pure []
  | succ fuel ih =>
    refine (serves_getJson url _).bind fun v ↦ (serves_ofExcept _).bind fun batch ↦ ?_
    split
    · exact serves_pure batch
    · exact (ih (page + 1)).bind fun _ ↦ serves_pure _

theorem serves_pages (url : String) : c.Serves (c.pages url) :=
  serves_state.bind fun _ ↦ serves_pagesFrom url 1 _

/-! ### Reading a file -/

/-- How fetching a file ends, by the last reply: the text of a successful response is given, and a
response with status 404 says that there is no such file. -/
structure FetchEnds (reply : Reply) (answer : Except Failure String) : Prop where
  ok : ∀ text, answer = .ok text ↔
    ∃ status content, reply = .response status content ∧ status < 300 ∧ content.textOf = text
  missing : (∃ t : Trouble, answer = .error (.trouble t) ∧ t.kind = .read) ↔
    ∃ content, reply = .response 404 content

/-- Fetching sent its request so many times, and the last reply decides how it ends. -/
structure Fetched (c : Client) (path : String) (ref : Token) (l : Link) (sent : Nat)
    (o : Outcome Link String) : Prop where
  requests : requestsOf o.trace = List.replicate (sent + 1) (c.contentRequest path ref)
  state : o.state = l.skip (sent + 1)
  ends : FetchEnds ((l.replies.drop sent).headD Link.noReply) o.answer

/-- What fetching makes of the failure to read. -/
def missing (path : String) (ref : Token) : Failure → Failure
  | .trouble ⟨.api (some 404), _, _⟩ =>
    .trouble ⟨.read, "not found at " ++ ref.plain, some path⟩
  | failure => failure

private theorem missing_of_ne {status : Int} (path : String) (ref : Token) (message : String)
    (h : status ≠ 404) :
    missing path ref (.trouble ⟨.api (some status), message, none⟩) =
      .trouble ⟨.api (some status), message, none⟩ := by
  unfold missing
  split
  · next heq =>
    injection heq with heq
    injection heq with heq
    injection heq with heq
    injection heq with heq
    exact absurd heq h
  · rfl

private theorem FetchEnds.of_broken (message : String) {e : Failure}
    (he : ∀ t : Trouble, e = .trouble t → t.kind ≠ .read) :
    FetchEnds (.broken message) (.error e) where
  ok text := ⟨nofun, nofun⟩
  missing := by
    constructor
    · rintro ⟨t, heq, hkind⟩
      exact absurd hkind (he t (Except.error.inj heq))
    · rintro ⟨_, ⟨⟩⟩

private theorem FetchEnds.of_success {status : Int} (content : Content) (h : status < 300) :
    FetchEnds (.response status content) (.ok content.textOf) where
  ok text := by
    constructor
    · rintro ⟨⟩
      exact ⟨status, content, rfl, h, rfl⟩
    · rintro ⟨_, _, ⟨⟩, -, rfl⟩
      rfl
  missing := by
    constructor
    · rintro ⟨t, ⟨⟩, -⟩
    · rintro ⟨_, ⟨⟩⟩
      exact absurd h (by decide)

private theorem FetchEnds.of_refused (path : String) (ref : Token) {status : Int}
    (content : Content) (message : String) (h : ¬status < 300) :
    FetchEnds (.response status content)
      (.error (Forge.missing path ref (.trouble ⟨.api (some status), message, none⟩))) where
  ok text := by
    constructor
    · rintro ⟨⟩
    · rintro ⟨_, _, ⟨⟩, hlt, -⟩
      exact absurd hlt h
  missing := by
    by_cases h404 : status = 404
    · subst h404
      exact ⟨fun _ ↦ ⟨content, rfl⟩, fun _ ↦ ⟨_, rfl, rfl⟩⟩
    · rw [missing_of_ne path ref _ h404]
      constructor
      · rintro ⟨t, ⟨⟩, hkind⟩
        cases hkind
      · rintro ⟨_, ⟨⟩⟩
        exact absurd rfl h404

private theorem fetchEnds_verdict (path : String) (ref : Token) (attempts : Nat) (reply : Reply) :
    FetchEnds reply (((verdict reply >>= fun content ↦ Except.ok content.textOf).mapError
      (finalFailure attempts)).mapError (missing path ref)) := by
  cases reply with
  | broken message =>
    apply FetchEnds.of_broken
    rintro t ⟨⟩
    exact nofun
  | response status content =>
    by_cases hstatus : status < 300
    · rw [verdict, if_pos hstatus]
      exact .of_success content hstatus
    · rw [verdict, if_neg hstatus]
      exact .of_refused path ref content _ hstatus

theorem run_recover_fail {α : Type} (a : Act Link α) (g : Failure → Failure) (l : Link) :
    (a.recover fun e ↦ Act.fail (g e)).run l =
      ⟨(a.run l).answer.mapError g, (a.run l).state, (a.run l).trace⟩ := by
  rcases hrun : a.run l with ⟨e | v, l₁, trace⟩
  · rw [Act.run_recover_error hrun]
    exact congrArg _ (List.append_nil trace)
  · rw [Act.run_recover_ok hrun]
    rfl

theorem fetchContent_eq (c : Client) (path : String) (ref : Token) :
    c.fetchContent path ref =
      (retry c.config.maxRetries (readOnce (c.contentRequest path ref)
        fun content ↦ .ok content.textOf)).recover fun e ↦ Act.fail (missing path ref e) := by
  have hcases : (fun failure : Failure ↦
      match failure with
      | .trouble ⟨.api (some 404), _, _⟩ =>
        (Act.fail (.trouble ⟨.read, "not found at " ++ ref.plain, some path⟩) : Act Link String)
      | failure => Act.fail failure) = fun e ↦ Act.fail (missing path ref e) := by
    funext e
    unfold missing
    split
    · rfl
    · rfl
  rw [← hcases]
  rfl

/-- Over an open session a file is asked for at least once. -/
theorem run_fetchContent_open (c : Client) (path : String) (ref : Token)
    (hl : l.session ≠ .closed) :
    ∃ sent, Fetched c path ref l sent ((c.fetchContent path ref).run l) := by
  obtain ⟨sent, hread⟩ := run_retry_open (q := c.contentRequest path ref)
    (f := fun content ↦ .ok content.textOf) c.config.maxRetries hl
  rw [fetchContent_eq, run_recover_fail]
  refine ⟨sent, hread.requests, hread.state, ?_⟩
  dsimp only
  rw [hread.answer]
  exact fetchEnds_verdict path ref _ _

/-- Without a session no file is fetched. -/
theorem run_fetchContent_closed (c : Client) (path : String) (ref : Token)
    (hl : l.session = .closed) :
    (c.fetchContent path ref).run l = ⟨.error .noSession, l, []⟩ :=
  Act.run_recover_error (run_retry_closed (q := c.contentRequest path ref)
    (f := fun content ↦ .ok content.textOf) c.config.maxRetries hl) _

/-! ### Remembering -/

private theorem run_state_bind {α : Type} (f : Link → Act Link α) (l : Link) :
    (Act.state >>= f).run l = (f l).run l := rfl

theorem run_ofExcept_bind {α β : Type} {x : Except Failure α} {v : α} (hx : x = .ok v)
    (f : α → Act Link β) (l : Link) : (Act.ofExcept x >>= f).run l = (f v).run l := by
  rw [hx]
  rfl

/-- A content that is remembered is given without a request. -/
theorem run_content_known {path text : String} {ref key : Token}
    (hkey : Client.lookupKey ref = .ok key) (hl : l.contentOf? path key = some text) :
    (c.content path ref).run l = ⟨.ok text, l, []⟩ := by
  unfold Client.content
  rw [run_ofExcept_bind hkey, run_state_bind]
  unfold Link.contentOf? at hl
  simp only [hl]
  rfl

/-- A content that is not remembered is fetched, and remembered where that gives a text. -/
theorem run_content_unknown {path : String} {ref key : Token}
    (hkey : Client.lookupKey ref = .ok key) (hl : l.contentOf? path key = none) :
    (c.content path ref).run l =
      match (c.fetchContent path ref).run l with
      | ⟨.ok text, l₁, trace⟩ =>
        ⟨.ok text, { l₁ with contents := ((path, key), text) :: l₁.contents }, trace⟩
      | ⟨.error e, l₁, trace⟩ => ⟨.error e, l₁, trace⟩ := by
  unfold Client.content
  rw [run_ofExcept_bind hkey, run_state_bind]
  unfold Link.contentOf? at hl
  simp only [hl]
  rcases hrun : (c.fetchContent path ref).run l with ⟨e | text, l₁, trace⟩
  · exact Act.run_bind_error hrun _
  · refine (Act.run_bind_ok hrun _).trans ?_
    exact congrArg _ (List.append_nil trace)

/-- What no key can be made of is not asked for. -/
theorem run_content_keyless {path : String} {ref : Token} {e : Failure}
    (hkey : Client.lookupKey ref = .error e) :
    (c.content path ref).run l = ⟨.error e, l, []⟩ := by
  unfold Client.content
  rw [hkey]
  rfl

/-- Revisions that are remembered are given without a request. -/
theorem run_revisions_known {change key : Token} {r : Revisions}
    (hkey : Client.lookupKey change = .ok key) (hl : l.revisionsOf? key = some r) :
    (c.revisions change).run l = ⟨.ok r, l, []⟩ := by
  unfold Client.revisions
  rw [run_ofExcept_bind hkey, run_state_bind]
  unfold Link.revisionsOf? at hl
  simp only [hl]
  rfl

/-- Revisions that are not remembered are fetched, and remembered where they are found. -/
theorem run_revisions_unknown {change key : Token} (hkey : Client.lookupKey change = .ok key)
    (hl : l.revisionsOf? key = none) :
    (c.revisions change).run l =
      match (c.getJson (c.url ("pulls/" ++ change.plain)) none).run l with
      | ⟨.ok data, l₁, trace⟩ =>
        match Client.revisionsOf data with
        | .ok r => ⟨.ok r, { l₁ with revisions := (key, r) :: l₁.revisions }, trace⟩
        | .error e => ⟨.error e, l₁, trace⟩
      | ⟨.error e, l₁, trace⟩ => ⟨.error e, l₁, trace⟩ := by
  unfold Client.revisions
  rw [run_ofExcept_bind hkey, run_state_bind]
  unfold Link.revisionsOf? at hl
  simp only [hl]
  rcases hrun : (c.getJson (c.url ("pulls/" ++ change.plain)) none).run l with
    ⟨e | data, l₁, trace⟩
  · exact Act.run_bind_error hrun _
  · refine (Act.run_bind_ok hrun _).trans ?_
    dsimp only
    cases hdata : Client.revisionsOf data with
    | ok r => exact congrArg _ (List.append_nil trace)
    | error e => exact congrArg _ (List.append_nil trace)

theorem run_revisions_keyless {change : Token} {e : Failure}
    (hkey : Client.lookupKey change = .error e) :
    (c.revisions change).run l = ⟨.error e, l, []⟩ := by
  unfold Client.revisions
  rw [hkey]
  rfl

theorem contentOf?_remembered (l : Link) (path path' text : String) (key key' : Token) :
    Link.contentOf? { l with contents := ((path, key), text) :: l.contents } path' key' =
      if (path', key') = (path, key) then some text else l.contentOf? path' key' := by
  unfold Link.contentOf?
  rw [List.lookup_cons]
  by_cases h : (path', key') = (path, key)
  · rw [if_pos h, beq_iff_eq.mpr h]
  · rw [if_neg h, beq_eq_false_iff_ne.mpr h]

theorem revisionsOf?_remembered (l : Link) (key key' : Token) (r : Revisions) :
    Link.revisionsOf? { l with revisions := (key, r) :: l.revisions } key' =
      if key' = key then some r else l.revisionsOf? key' := by
  unfold Link.revisionsOf?
  rw [List.lookup_cons]
  by_cases h : key' = key
  · rw [if_pos h, beq_iff_eq.mpr h]
  · rw [if_neg h, beq_eq_false_iff_ne.mpr h]

/-- A content that is read anew may be remembered. -/
private theorem Served.remember_content {path text : String} {key : Token}
    (h : Served c l trace l') (hnew : l.contentOf? path key = none)
    (hread : c.ReadsContent l.replies (requestsOf trace) path key text) :
    Served c l trace { l' with contents := ((path, key), text) :: l'.contents } where
  replies := h.replies
  contents path' key' text' hl := by
    rw [contentOf?_remembered]
    split
    · next heq =>
      obtain ⟨rfl, rfl⟩ := Prod.mk.inj heq
      rw [hnew] at hl
      cases hl
    · exact h.contents path' key' text' hl
  revisions := h.revisions
  newContents path' key' text' hl := by
    rw [contentOf?_remembered] at hl
    split at hl
    · next heq =>
      obtain ⟨rfl, rfl⟩ := Prod.mk.inj heq
      cases hl
      exact .inr hread
    · exact h.newContents path' key' text' hl
  newRevisions := h.newRevisions

/-- Revisions that are read anew may be remembered. -/
private theorem Served.remember_revisions {key : Token} {r : Revisions}
    (h : Served c l trace l') (hnew : l.revisionsOf? key = none)
    (hread : c.ReadsRevisions l.replies (requestsOf trace) key r) :
    Served c l trace { l' with revisions := (key, r) :: l'.revisions } where
  replies := h.replies
  contents := h.contents
  revisions key' r' hl := by
    rw [revisionsOf?_remembered]
    split
    · next heq =>
      rw [heq, hnew] at hl
      cases hl
    · exact h.revisions key' r' hl
  newContents := h.newContents
  newRevisions key' r' hl := by
    rw [revisionsOf?_remembered] at hl
    split at hl
    · next heq =>
      cases hl
      rw [heq]
      exact .inr hread
    · exact h.newRevisions key' r' hl

/-- The last reply to some equal requests is a reply to one of them. -/
private theorem answered_of_last {replies : List Reply} {q : Request} {sent : Nat} {status : Int}
    {content : Content} (hlast : (replies.drop sent).headD Link.noReply = .response status content)
    (hstatus : status < 300) : Answered replies (List.replicate (sent + 1) q) q content := by
  refine ⟨status, hstatus, List.mem_of_getLast? ?_⟩
  rw [getLast?_exchanges_replicate, hlast]

theorem serves_fetchContent (path : String) (ref : Token) : c.Serves (c.fetchContent path ref) := by
  rw [fetchContent_eq]
  exact (serves_retry _ ((serves_request _).bind fun _ ↦ serves_ofExcept _)).recover
    fun e ↦ serves_fail _

/-- A text that is fetched was the answer to the request for it. -/
private theorem answered_of_fetchContent {path text : String} {ref : Token}
    (h : (c.fetchContent path ref).run l = ⟨.ok text, l', trace⟩) :
    ∃ content, Answered l.replies (requestsOf trace) (c.contentRequest path ref) content ∧
      content.textOf = text := by
  by_cases hl : l.session = .closed
  · rw [run_fetchContent_closed c path ref hl] at h
    cases h
  · obtain ⟨sent, hfetched⟩ := run_fetchContent_open c path ref hl
    rw [h] at hfetched
    obtain ⟨status, content, hreply, hstatus, htext⟩ := (hfetched.ends.ok text).mp rfl
    refine ⟨content, ?_, htext⟩
    rw [hfetched.requests]
    exact answered_of_last hreply hstatus

theorem serves_content (path : String) (ref : Token) : c.Serves (c.content path ref) := by
  intro l
  cases hkey : Client.lookupKey ref with
  | error e =>
    rw [run_content_keyless hkey]
    exact .of_skip rfl
  | ok key =>
    cases hl : l.contentOf? path key with
    | some text =>
      rw [run_content_known hkey hl]
      exact .of_skip rfl
    | none =>
      rw [run_content_unknown hkey hl]
      have hserved := serves_fetchContent path ref (c := c) l
      rcases hrun : (c.fetchContent path ref).run l with ⟨e | text, l₁, trace⟩
      · rwa [hrun] at hserved
      · rw [hrun] at hserved
        obtain ⟨content, hanswered, htext⟩ := answered_of_fetchContent hrun
        exact hserved.remember_content hl ⟨ref, content, hkey, hanswered, htext⟩

private theorem eq_json_of_valueOf {reply : Reply} {attempts : Nat} {data : Json}
    (h : (verdict reply >>= Content.valueOf).mapError (finalFailure attempts) = .ok data) :
    ∃ status, reply = .response status (.json data) ∧ status < 300 := by
  cases reply with
  | broken message => cases h
  | response status content =>
    by_cases hstatus : status < 300
    · rw [verdict, if_pos hstatus] at h
      cases content with
      | text s => cases h
      | json v =>
        cases h
        exact ⟨status, rfl, hstatus⟩
    · rw [verdict, if_neg hstatus] at h
      cases h

/-- A value that is read was the answer to the request for it. -/
private theorem answered_of_getJson {url : String} {params : Option Fields} {data : Json}
    (h : (c.getJson url params).run l = ⟨.ok data, l', trace⟩) :
    Answered l.replies (requestsOf trace) ⟨.get, url, params, none, none⟩ (.json data) := by
  have hread : c.getJson url params =
      retry c.config.maxRetries (readOnce ⟨.get, url, params, none, none⟩ Content.valueOf) := rfl
  rw [hread] at h
  by_cases hl : l.session = .closed
  · rw [run_retry_closed _ hl] at h
    cases h
  · obtain ⟨sent, hout⟩ := run_retry_open (q := ⟨.get, url, params, none, none⟩)
      (f := Content.valueOf) c.config.maxRetries hl
    rw [h] at hout
    obtain ⟨status, hreply, hstatus⟩ := eq_json_of_valueOf hout.answer.symm
    rw [hout.requests]
    exact answered_of_last hreply hstatus

theorem serves_revisions (change : Token) : c.Serves (c.revisions change) := by
  intro l
  cases hkey : Client.lookupKey change with
  | error e =>
    rw [run_revisions_keyless hkey]
    exact .of_skip rfl
  | ok key =>
    cases hl : l.revisionsOf? key with
    | some r =>
      rw [run_revisions_known hkey hl]
      exact .of_skip rfl
    | none =>
      rw [run_revisions_unknown hkey hl]
      have hserved := serves_getJson (c.url ("pulls/" ++ change.plain)) none (c := c) l
      rcases hrun : (c.getJson (c.url ("pulls/" ++ change.plain)) none).run l with
        ⟨e | data, l₁, trace⟩
      · rwa [hrun] at hserved
      · rw [hrun] at hserved
        cases hdata : Client.revisionsOf data with
        | error e =>
          simp only [hdata]
          exact hserved
        | ok r =>
          simp only [hdata]
          exact hserved.remember_revisions hl
            ⟨change, data, hkey, answered_of_getJson hrun, hdata⟩

/-! ### Every call -/

theorem serves_baseContent (path : String) (ref : Token) : c.Serves (c.baseContent path ref) := by
  refine (serves_content path ref).recover fun e ↦ ?_
  split
  · exact serves_pure ""
  · exact serves_fail _

theorem serves_diff (path : String) (r : Revisions) : c.Serves (c.diff path r) :=
  (serves_baseContent path r.base).bind fun _ ↦
    (serves_content path r.head).bind fun _ ↦ serves_pure _

theorem serves_create (change : Token) (d : Draft) : c.Serves (c.create change d) := by
  refine (serves_revisions change).bind fun r ↦ ?_
  refine Client.Serves.bind ?_ fun data ↦ serves_ofExcept _
  refine (serves_postJson _ _).recover fun e ↦ ?_
  split
  · exact serves_fail _
  · exact serves_fail _

theorem serves_ensureLabel (change : Token) (name : String) :
    c.Serves (c.ensureLabel change name) := by
  have hadd : c.Serves (do
      let payload : Json := .object [("labels", .list [.text name])]
      let _ ← Client.postJson (c.url ("issues/" ++ change.plain ++ "/labels")) payload) :=
    (serves_postJson _ _).bind fun _ ↦ serves_pure ()
  refine (serves_getJson _ _).attempt.bind fun x ↦ ?_
  split
  · exact (serves_pure ()).bind fun _ ↦ hadd
  · exact ((serves_postJson _ _).bind fun _ ↦ serves_emit rfl).bind fun _ ↦ hadd
  · exact (serves_fail _).bind fun _ ↦ hadd

/-- Whatever is asked of a client, it keeps what it remembers and adds only what it reads. -/
theorem serves_ask (call : Call) : c.Serves (c.backend.ask call) := by
  cases call with
  | revisions change => exact serves_revisions change
  | changedFiles change => exact (serves_pages _).bind fun _ ↦ serves_ofExcept _
  | content path ref => exact serves_content path ref
  | diff path r => exact serves_diff path r
  | annotations change => exact (serves_pages _).bind fun _ ↦ serves_ofExcept _
  | create change d => exact serves_create change d
  | requestChanges change body =>
    exact (serves_postJson _ _).bind fun _ ↦ serves_emit rfl
  | ensureLabel change name => exact serves_ensureLabel change name

end RouteWatch.Forge
