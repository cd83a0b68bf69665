import RouteWatch.Forge.Client
import RouteWatch.Proofs.Action.TwoRuns

/-!
# Requests and their replies

The requests of a run, each with the reply that it was given, are what the run exchanged over a
link. What is read is asked for again and again with one and the same request, with a pause after
each reply but the last, which decides what the reading ends with.
-/

namespace RouteWatch.Forge

/-- The requests in a trace. -/
def requestsOf (trace : List Event) : List Request :=
  trace.filterMap fun
    | .requested q => some q
    | _ => none

/-- The pauses in a trace. -/
def pausesOf (trace : List Event) : List Seconds :=
  trace.filterMap fun
    | .slept time => some time
    | _ => none

/-- Requests and what they are replied to, given the replies that are to come. -/
def exchanges (replies : List Reply) : List Request → List (Request × Reply)
  | [] => []
  | q :: qs => (q, replies.headD Link.noReply) :: exchanges replies.tail qs

@[simp] theorem requestsOf_append (trace rest : List Event) :
    requestsOf (trace ++ rest) = requestsOf trace ++ requestsOf rest :=
  List.filterMap_append ..

@[simp] theorem pausesOf_append (trace rest : List Event) :
    pausesOf (trace ++ rest) = pausesOf trace ++ pausesOf rest :=
  List.filterMap_append ..

/-- Later requests are given the replies that earlier ones left. -/
theorem exchanges_append (replies : List Reply) (qs more : List Request) :
    exchanges replies (qs ++ more) =
      exchanges replies qs ++ exchanges (replies.drop qs.length) more := by
  induction qs generalizing replies with
  | nil => rfl
  | cons q qs ih =>
    rw [List.cons_append, exchanges, exchanges, ih, List.length_cons, ← List.drop_tail]
    rfl

/-- A reply is one of those that were to come, or there was none left. -/
theorem reply_mem_of_exchange {replies : List Reply} {qs : List Request} {q : Request}
    {reply : Reply} (h : (q, reply) ∈ exchanges replies qs) :
    reply ∈ replies ∨ reply = Link.noReply := by
  induction qs generalizing replies with
  | nil => exact absurd h List.not_mem_nil
  | cons p qs ih =>
    rcases List.mem_cons.mp h with h | h
    · obtain ⟨-, rfl⟩ := Prod.mk.inj h
      cases replies with
      | nil => exact .inr rfl
      | cons r rs => exact .inl (List.mem_cons_self ..)
    · exact (ih h).imp List.mem_of_mem_tail id

/-- The last of some equal requests is given the reply that the ones before it left. -/
theorem getLast?_exchanges_replicate (replies : List Reply) (q : Request) (count : Nat) :
    (exchanges replies (List.replicate (count + 1) q)).getLast? =
      some (q, (replies.drop count).headD Link.noReply) := by
  induction count generalizing replies with
  | zero => rfl
  | succ count ih =>
    rw [List.replicate_succ, exchanges, List.getLast?_cons, ih, ← List.drop_one, List.drop_drop,
      Nat.add_comm 1 count]
    rfl

/-! ### One request -/

variable {α : Type} {q : Request} {l : Link}

/-- What a request ends with that is given a reply. -/
def verdict : Reply → Except Failure Content
  | .broken message => .error (.network message)
  | .response status content =>
    if status < 300 then .ok content
    else .error (.trouble ⟨.api (some status),
      "GitHub API error (" ++ Text.showInt status ++ "): " ++ content.textOf, none⟩)

/-- The replies to come after some requests. -/
def Link.skip (l : Link) (count : Nat) : Link := { l with replies := l.replies.drop count }

/-- The reply to a request after so many others. -/
def Link.replyAt (l : Link) (count : Nat) : Reply := (l.replies.drop count).headD Link.noReply

theorem Link.replyAt_eq (l : Link) (count : Nat) :
    l.replyAt count = l.replies[count]?.getD Link.noReply := by
  rw [Link.replyAt, List.headD_eq_head?_getD, List.head?_drop]

theorem run_send (q : Request) (l : Link) :
    (Link.send q).run l = ⟨.ok (l.replyAt 0), l.skip 1, [.requested q]⟩ := by
  obtain ⟨replies, session, contents, revisions⟩ := l
  cases replies <;> rfl

/-- Without a session nothing is sent. -/
theorem run_request_closed (hl : l.session = .closed) :
    (Link.request q).run l = ⟨.error .noSession, l, []⟩ := by
  obtain ⟨replies, session, contents, revisions⟩ := l
  subst hl
  rfl

/-- What is done with a reply: it is given on, or told as a warning. -/
private def settle (q : Request) : Reply → Act Link Content
  | .broken message => Act.fail (.network message)
  | .response status content =>
    if status < 300 then pure content
    else do
      Act.warn ("[GitHubClient] " ++ q.method.word ++ " " ++ q.url ++ " failed (" ++
        Text.showInt status ++ "): " ++ content.textOf)
      Act.fail (.trouble ⟨.api (some status),
        "GitHub API error (" ++ Text.showInt status ++ "): " ++ content.textOf, none⟩)

private theorem run_settle (q : Request) (reply : Reply) (l : Link) :
    ∃ trace, (requestsOf trace = [] ∧ pausesOf trace = []) ∧
      (settle q reply).run l = ⟨verdict reply, l, trace⟩ := by
  cases reply with
  | broken message => exact ⟨_, ⟨rfl, rfl⟩, rfl⟩
  | response status content =>
    by_cases hstatus : status < 300
    · simp only [settle, verdict, if_pos hstatus]
      exact ⟨_, ⟨rfl, rfl⟩, rfl⟩
    · simp only [settle, verdict, if_neg hstatus]
      exact ⟨_, ⟨rfl, rfl⟩, rfl⟩

/-- Over an open session one request is sent, without a pause, and its reply decides. -/
theorem run_request_open (hl : l.session ≠ .closed) :
    ∃ trace, (requestsOf trace = [q] ∧ pausesOf trace = []) ∧
      (Link.request q).run l = ⟨verdict (l.replyAt 0), l.skip 1, trace⟩ := by
  have hopen : (Link.request q).run l = (Link.send q >>= settle q).run l := by
    obtain ⟨replies, session, contents, revisions⟩ := l
    cases session with
    | closed => exact absurd rfl hl
    | owned => rfl
    | lent => rfl
  obtain ⟨trace, ⟨htrace, hpauses⟩, hsettle⟩ := run_settle q (l.replyAt 0) (l.skip 1)
  refine ⟨.requested q :: trace, ⟨congrArg (q :: ·) htrace, hpauses⟩, ?_⟩
  rw [hopen, Act.run_bind_ok (run_send q l), hsettle]
  rfl

/-! ### Reading -/

/-- One attempt to read: a request and what is made of the content that comes. -/
def readOnce (q : Request) (f : Content → Except Failure α) : Act Link α := do
  Act.ofExcept (f (← Link.request q))

variable {f : Content → Except Failure α}

private theorem run_readOnce_closed (hl : l.session = .closed) :
    (readOnce q f).run l = ⟨.error .noSession, l, []⟩ :=
  Act.run_bind_error (run_request_closed hl) _

theorem run_ofExcept (x : Except Failure α) (l : Link) :
    (Act.ofExcept x : Act Link α).run l = ⟨x, l, []⟩ := by
  cases x <;> rfl

/-- Over an open session one attempt sends one request, and what is made of its reply decides. -/
theorem run_readOnce_open (hl : l.session ≠ .closed) :
    ∃ trace, (requestsOf trace = [q] ∧ pausesOf trace = []) ∧
      (readOnce q f).run l = ⟨verdict (l.replyAt 0) >>= f, l.skip 1, trace⟩ := by
  obtain ⟨trace, htrace, hrequest⟩ := run_request_open (q := q) hl
  refine ⟨trace, htrace, ?_⟩
  unfold readOnce
  cases hverdict : verdict (l.replyAt 0) with
  | ok content =>
    rw [hverdict] at hrequest
    rw [Act.run_bind_ok hrequest, run_ofExcept, List.append_nil]
    rfl
  | error e =>
    rw [hverdict] at hrequest
    rw [Act.run_bind_error hrequest]
    rfl

/-- A failure after which nothing is tried again is final as it is. -/
private theorem finalFailure_of_delayAfter? {e : Failure} (attempts : Nat)
    (h : delayAfter? e = none) : finalFailure attempts e = e := by
  unfold finalFailure
  split
  · exact absurd h (by simp [delayAfter?])
  · rfl

private theorem skip_skip (l : Link) (m n : Nat) : (l.skip m).skip n = l.skip (m + n) := by
  rw [Link.skip, Link.skip, Link.skip, List.drop_drop]

private theorem replyAt_skip (l : Link) (m n : Nat) : (l.skip m).replyAt n = l.replyAt (m + n) := by
  rw [Link.replyAt, Link.replyAt, Link.skip, List.drop_drop]

/-- The first pause that may follow what is made of a reply; none follows where this decides. -/
def pauseAfter : Except Failure α → Option Nat
  | .ok _ => none
  | .error e => (delayAfter? e).map (·.seconds)

/-- What reading ends with that sent its request so many times, where `attempt` attempts were made
before and `left` could follow the first: each reply but the last called for a pause, which was
twice as long each time, and the last one decides. -/
structure ReadOut (q : Request) (f : Content → Except Failure α) (l : Link)
    (attempt left sent : Nat) (o : Outcome Link α) : Prop where
  requests : requestsOf o.trace = List.replicate (sent + 1) q
  state : o.state = l.skip (sent + 1)
  answer : o.answer =
    (verdict (l.replyAt sent) >>= f).mapError (finalFailure (attempt + left + 1))
  sent_le : sent ≤ left
  decides : sent < left → pauseAfter (verdict (l.replyAt sent) >>= f) = none
  length_pauses : (pausesOf o.trace).length = sent
  pauses : ∀ i < sent, ∃ seconds, pauseAfter (verdict (l.replyAt i) >>= f) = some seconds ∧
    (pausesOf o.trace)[i]? = some (.whole (Nat.pow 2 (attempt + i) * seconds : Nat))

private theorem ReadOut.first {trace : List Event} {attempt left : Nat}
    (htrace : requestsOf trace = [q] ∧ pausesOf trace = []) {answer : Except Failure α}
    (hdecides : 0 < left → pauseAfter (verdict (l.replyAt 0) >>= f) = none)
    (hanswer : answer =
      (verdict (l.replyAt 0) >>= f).mapError (finalFailure (attempt + left + 1))) :
    ReadOut q f l attempt left 0 ⟨answer, l.skip 1, trace⟩ where
  requests := htrace.1
  state := rfl
  answer := hanswer
  sent_le := Nat.zero_le left
  decides := hdecides
  length_pauses := congrArg List.length htrace.2
  pauses i hi := absurd hi (Nat.not_lt_zero i)

private theorem ReadOut.again {trace : List Event} {attempt left sent seconds : Nat}
    {o : Outcome Link α} (h : ReadOut q f (l.skip 1) (attempt + 1) left sent o)
    (htrace : requestsOf trace = q :: requestsOf o.trace)
    (hpause : pauseAfter (verdict (l.replyAt 0) >>= f) = some seconds)
    (hpauses : pausesOf trace =
      .whole (Nat.pow 2 attempt * seconds : Nat) :: pausesOf o.trace) :
    ReadOut q f l attempt (left + 1) (sent + 1) ⟨o.answer, o.state, trace⟩ where
  requests := by
    rw [htrace, h.requests]
    rfl
  state := by
    refine h.state.trans ?_
    rw [skip_skip, Nat.add_comm]
  answer := by
    refine h.answer.trans ?_
    rw [replyAt_skip, Nat.add_comm 1 sent, Nat.add_right_comm attempt 1 left]
    rfl
  sent_le := Nat.succ_le_succ h.sent_le
  decides hlt := by
    rw [← Nat.add_comm 1 sent, ← replyAt_skip]
    exact h.decides (Nat.lt_of_succ_lt_succ hlt)
  length_pauses := by
    rw [hpauses, List.length_cons, h.length_pauses]
  pauses
    | 0, _ => ⟨seconds, hpause, by rw [hpauses]; rfl⟩
    | i + 1, hi => by
      obtain ⟨later, hlater, hmem⟩ := h.pauses i (Nat.lt_of_succ_lt_succ hi)
      refine ⟨later, ?_, ?_⟩
      · rw [← hlater, replyAt_skip, Nat.add_comm 1 i]
      · rw [hpauses, List.getElem?_cons_succ, hmem, Nat.add_assoc, Nat.add_comm 1 i]

/-- The induction is on the attempts that are left: each failed one that is followed by another
sends the request once more. -/
private theorem run_retryFrom (attempt left : Nat) (hl : l.session ≠ .closed) :
    ∃ sent, ReadOut q f l attempt left sent
      ((retryFrom (readOnce q f) attempt left).run l) := by
  induction left generalizing attempt l with
  | zero =>
    obtain ⟨trace, htrace, hrun⟩ := run_readOnce_open (q := q) (f := f) hl
    rw [retryFrom]
    cases hanswer : verdict (l.replyAt 0) >>= f with
    | ok v =>
      rw [hanswer] at hrun
      rw [Act.run_recover_ok hrun]
      exact ⟨0, .first htrace nofun (by rw [hanswer]; rfl)⟩
    | error e =>
      rw [hanswer] at hrun
      rw [Act.run_recover_error hrun]
      refine ⟨0, .first ?_ nofun (by rw [hanswer]; rfl)⟩
      rw [requestsOf_append, pausesOf_append, htrace.1, htrace.2]
      exact ⟨rfl, rfl⟩
  | succ left ih =>
    obtain ⟨trace, htrace, hrun⟩ := run_readOnce_open (q := q) (f := f) hl
    rw [retryFrom]
    cases hanswer : verdict (l.replyAt 0) >>= f with
    | ok v =>
      rw [hanswer] at hrun
      rw [Act.run_recover_ok hrun]
      exact ⟨0, .first htrace (fun _ ↦ by rw [hanswer]; rfl) (by rw [hanswer]; rfl)⟩
    | error e =>
      rw [hanswer] at hrun
      rw [Act.run_recover_error hrun]
      have hpause : pauseAfter (verdict (l.replyAt 0) >>= f) = (delayAfter? e).map (·.seconds) := by
        rw [hanswer]
        rfl
      cases hdelay : delayAfter? e with
      | none =>
        rw [hdelay] at hpause
        refine ⟨0, .first ?_ (fun _ ↦ hpause) ?_⟩
        · rw [requestsOf_append, pausesOf_append, htrace.1, htrace.2]
          exact ⟨rfl, rfl⟩
        · rw [hanswer]
          exact congrArg Except.error (finalFailure_of_delayAfter? _ hdelay).symm
      | some delay =>
        rw [hdelay] at hpause
        have hopen : (l.skip 1).session ≠ .closed := hl
        obtain ⟨sent, hread⟩ := ih (attempt + 1) hopen
        refine ⟨sent + 1, hread.again ?_ hpause ?_⟩
        · rw [requestsOf_append, htrace.1]
          rfl
        · rw [pausesOf_append, htrace.2]
          rfl

/-- Over an open session reading sends its request at least once. -/
theorem run_retry_open (attempts : Int) (hl : l.session ≠ .closed) :
    ∃ sent, ReadOut q f l 0 (attempts.toNat - 1) sent
      ((retry attempts (readOnce q f)).run l) :=
  run_retryFrom _ _ hl

/-- Without a session reading fails at once. -/
theorem run_retry_closed (attempts : Int) (hl : l.session = .closed) :
    (retry attempts (readOnce q f)).run l = ⟨.error .noSession, l, []⟩ := by
  unfold retry
  cases attempts.toNat - 1 with
  | zero => exact Act.run_recover_error (run_readOnce_closed hl) _
  | succ left => exact Act.run_recover_error (run_readOnce_closed hl) _

end RouteWatch.Forge
