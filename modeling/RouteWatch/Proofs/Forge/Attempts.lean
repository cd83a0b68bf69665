import Mathlib.Data.List.Basic
import RouteWatch.Proofs.Forge.Memo

/-!
# How often a request is sent

A client that reads sends its request until a reply decides, or for the last time that is allowed;
before it sends the request again it waits, twice as long each time. What it writes is sent once.
Either way the last reply says how the call ends, and no call ends without a value or trouble.
-/

namespace RouteWatch.Forge

variable {α : Type}

/-- The value of a response, or what is said of one that has none. -/
def Content.value? : Content → Except String Json
  | .json v => .ok v
  | .text _ => .error "response is not JSON"

namespace Reply

/-- How a call ends with a reply to it. It gives what `g` takes from a successful response; any
other response is trouble with its status. A failure of the network is trouble without a status, and
so is a successful response from which nothing can be taken. -/
def ending (g : Content → Except String α) (told : String → String) : Reply → Except Failure α
  | .broken message => .error (.trouble ⟨.api none, told message, none⟩)
  | .response status content =>
    if status < 300 then
      match g content with
      | .ok v => .ok v
      | .error message => .error (.trouble ⟨.api none, told message, none⟩)
    else .error (.trouble ⟨.api (some status),
      "GitHub API error (" ++ Text.showInt status ++ "): " ++ content.textOf, none⟩)

/-- The first pause that a reply may call for: five seconds after a response that asks for patience,
two after a failure of the network or a response from which nothing can be taken. -/
def pause? (g : Content → Except String α) : Reply → Option Nat
  | .broken _ => some 2
  | .response status content =>
    if status < 300 then
      match g content with
      | .ok _ => none
      | .error _ => some 2
    else if status = 429 ∨ status = 503 then some 5 else none

end Reply

/-- The number of attempts that a client makes to read something. -/
def Client.attempts (c : Client) : Nat := (max 1 c.config.maxRetries).toNat

/-- How a read goes that may make some attempts and makes `k + 1`: it takes the replies up to the
first that calls for no pause, or the last that is allowed, which decides how it ends. -/
structure Persists (q : Request) (g : Content → Except String α) (attempts : Nat) (l : Link)
    (o : Outcome Link α) (k : Nat) : Prop where
  allowed : k < attempts
  decides : (l.replyAt k).pause? g = none ∨ k + 1 = attempts
  requests : requestsOf o.trace = List.replicate (k + 1) q
  state : o.state = l.skip (k + 1)
  length_pauses : (pausesOf o.trace).length = k
  pauses : ∀ i < k, ∃ seconds, (l.replyAt i).pause? g = some seconds ∧
    (pausesOf o.trace)[i]? = some (.whole (Nat.pow 2 i * seconds : Nat))
  answer : o.answer = (l.replyAt k).ending g fun message ↦
    "Request failed after " ++ toString attempts ++ " attempts: " ++ message

variable {c : Client} {q : Request} {g : Content → Except String α} {l : Link}

/-! ### Replies -/

/-- Taking something from a response may fail as the network does. -/
private def take (g : Content → Except String α) (content : Content) : Except Failure α :=
  (g content).mapError .network

private theorem take_value? : take Content.value? = Content.valueOf := by
  funext content
  cases content <;> rfl

/-- A reply decides how a call ends that tells of the network as trouble. -/
private theorem mapError_verdict {tell : Failure → Failure} {told : String → String}
    (hnetwork : ∀ message, tell (.network message) = .trouble ⟨.api none, told message, none⟩)
    (htrouble : ∀ t, tell (.trouble t) = .trouble t) (reply : Reply) :
    (verdict reply >>= take g).mapError tell = reply.ending g told := by
  cases reply with
  | broken message => exact congrArg Except.error (hnetwork message)
  | response status content =>
    rw [verdict, Reply.ending]
    split
    · change (take g content).mapError tell = _
      rw [take]
      cases g content with
      | ok v => rfl
      | error message => exact congrArg Except.error (hnetwork message)
    · exact congrArg Except.error (htrouble _)

private theorem pauseAfter_verdict (reply : Reply) :
    pauseAfter (verdict reply >>= take g) = reply.pause? g := by
  cases reply with
  | broken message => rfl
  | response status content =>
    rw [verdict, Reply.pause?]
    split
    · change pauseAfter (take g content) = _
      rw [take]
      cases g content <;> rfl
    · change (if isRetryable status then some _ else none : Option Delay).map _ = _
      rw [apply_ite (Option.map _)]
      simp [isRetryable]

/-! ### Reading -/

private theorem ReadOut.persists {attempts : Int} {o : Outcome Link α} {k : Nat}
    (h : ReadOut q (take g) l 0 (attempts.toNat - 1) k o) :
    Persists q g (max 1 attempts).toNat l o k where
  allowed := by
    have := h.sent_le
    omega
  decides := by
    by_cases hlast : k < attempts.toNat - 1
    · exact .inl ((pauseAfter_verdict _).symm.trans (h.decides hlast))
    · have := h.sent_le
      exact .inr (by omega)
  requests := h.requests
  state := h.state
  length_pauses := h.length_pauses
  pauses i hi := by
    obtain ⟨seconds, hseconds, hpause⟩ := h.pauses i hi
    rw [pauseAfter_verdict] at hseconds
    refine ⟨seconds, hseconds, ?_⟩
    rw [hpause, Nat.zero_add]
  answer := by
    have hall : 0 + (attempts.toNat - 1) + 1 = (max 1 attempts).toNat := by omega
    rw [h.answer, hall]
    exact mapError_verdict (fun _ ↦ rfl) (fun _ ↦ rfl) _

/-- A read goes on to the first reply that calls for no pause, where it may. -/
theorem Persists.eq_of_decides {attempts n k : Nat} {o : Outcome Link α}
    (h : Persists q g attempts l o k) (hpauses : ∀ i < n, (l.replyAt i).pause? g ≠ none)
    (hdecides : (l.replyAt n).pause? g = none) (hallowed : n < attempts) : k = n := by
  rcases Nat.lt_trichotomy k n with hlt | heq | hgt
  · rcases h.decides with hnone | hlast
    · exact absurd hnone (hpauses k hlt)
    · omega
  · exact heq
  · obtain ⟨seconds, hseconds, -⟩ := h.pauses n hgt
    exact absurd (hdecides.symm.trans hseconds) nofun

/-- Reading a value makes as many attempts as it takes. -/
theorem persists_getJson (c : Client) (url : String) (params : Option Fields)
    (hopen : l.session ≠ .closed) :
    ∃ k, Persists ⟨.get, url, params, none, none⟩ Content.value? c.attempts l
      ((c.getJson url params).run l) k := by
  obtain ⟨k, hread⟩ := run_retry_open (q := ⟨.get, url, params, none, none⟩)
    (f := take Content.value?) c.config.maxRetries hopen
  have hpersists := hread.persists
  rw [take_value?] at hpersists
  exact ⟨k, hpersists⟩

/-! ### Writing -/

/-- What is told of a failure to write. -/
private def unsent (url : String) : Failure → Failure
  | .network message => .trouble ⟨.api none, "POST " ++ url ++ " failed: " ++ message, none⟩
  | failure => failure

private theorem postJson_eq (url : String) (payload : Json) :
    Client.postJson url payload =
      (readOnce ⟨.post, url, none, some payload, none⟩ Content.valueOf).recover fun e ↦
        Act.fail (unsent url e) := by
  have hcases : (fun failure : Failure ↦
      match failure with
      | .network message =>
        (Act.fail (.trouble
          ⟨.api none, "POST " ++ url ++ " failed: " ++ message, none⟩) : Act Link Json)
      | failure => Act.fail failure) = fun e ↦ Act.fail (unsent url e) := by
    funext e
    cases e <;> rfl
  rw [← hcases]
  rfl

/-- A value is sent once, and the reply decides. -/
private theorem run_postJson_open (url : String) (payload : Json) (hopen : l.session ≠ .closed) :
    ∃ trace, (requestsOf trace = [⟨.post, url, none, some payload, none⟩] ∧ pausesOf trace = []) ∧
      (Client.postJson url payload).run l =
        ⟨(l.replyAt 0).ending Content.value? fun message ↦
          "POST " ++ url ++ " failed: " ++ message, l.skip 1, trace⟩ := by
  obtain ⟨trace, htrace, hrun⟩ := run_readOnce_open
    (q := ⟨.post, url, none, some payload, none⟩) (f := Content.valueOf) hopen
  refine ⟨trace, htrace, ?_⟩
  rw [postJson_eq, run_recover_fail, hrun, ← take_value?]
  dsimp only
  rw [mapError_verdict (fun _ ↦ rfl) (fun _ ↦ rfl)]

/-- Over an open session a client reads with as many attempts as are needed and allowed, whether it
reads a value or the content of a file, and writes with one. -/
theorem Client.sends_as_allowed (c : Client) (l : Link) (hopen : l.session ≠ .closed) :
    (∀ url params, ∃ k, Persists ⟨.get, url, params, none, none⟩ Content.value? c.attempts l
      ((c.getJson url params).run l) k) ∧
    (∀ path ref, ∃ k o, Persists (c.contentRequest path ref) (fun content ↦ .ok content.textOf)
        c.attempts l o k ∧
      (c.fetchContent path ref).run l = ⟨o.answer.mapError (missing path ref), o.state, o.trace⟩) ∧
    ∀ url payload, ∃ trace,
      (requestsOf trace = [⟨.post, url, none, some payload, none⟩] ∧ pausesOf trace = []) ∧
        (Client.postJson url payload).run l =
          ⟨(l.replyAt 0).ending Content.value? fun message ↦
            "POST " ++ url ++ " failed: " ++ message, l.skip 1, trace⟩ := by
  refine ⟨fun url params ↦ persists_getJson c url params hopen, fun path ref ↦ ?_,
    fun url payload ↦ run_postJson_open url payload hopen⟩
  obtain ⟨k, hread⟩ := run_retry_open (q := c.contentRequest path ref)
    (f := take fun content ↦ .ok content.textOf) c.config.maxRetries hopen
  refine ⟨k, _, hread.persists, ?_⟩
  rw [fetchContent_eq, run_recover_fail]
  rfl

/-- Between a forge that asks for patience and a value the network fails once more: the second pause
is one for the network, but twice as long as it would have been before any other. -/
theorem Client.sends_as_allowed_patient :
    (Link.fresh [.response 503 (.text "busy"), .broken "", .response 200 (.json .null)]
      .lent).session ≠ .closed ∧
    ∃ o, o = ((⟨{ maxRetries := 3 }⟩ : Client).getJson "u" none).run
        (.fresh [.response 503 (.text "busy"), .broken "", .response 200 (.json .null)] .lent) ∧
      requestsOf o.trace = List.replicate 3 ⟨.get, "u", none, none, none⟩ ∧
      pausesOf o.trace = [.whole 5, .whole 4] ∧ o.answer = .ok .null := by
  refine ⟨nofun, _, rfl, ?_⟩
  obtain ⟨k, hread⟩ := (Client.sends_as_allowed ⟨{ maxRetries := 3 }⟩
    (.fresh [.response 503 (.text "busy"), .broken "", .response 200 (.json .null)] .lent)
    nofun).1 "u" none
  obtain rfl := hread.eq_of_decides (n := 2) (by decide) (by decide) (by decide)
  refine ⟨hread.requests, ?_, hread.answer⟩
  obtain ⟨first, hfirst, hpause⟩ := hread.pauses 0 (by decide)
  obtain ⟨second, hsecond, hpause'⟩ := hread.pauses 1 (by decide)
  obtain ⟨x, y, hxy⟩ := List.length_eq_two.mp hread.length_pauses
  rw [hxy] at hpause hpause' ⊢
  cases hfirst
  cases hsecond
  cases hpause
  cases hpause'
  rfl

end RouteWatch.Forge
