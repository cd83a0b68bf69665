import RouteWatch.Proofs.Forge.Memo
import RouteWatch.Proofs.Text.Lines
import RouteWatch.Proofs.Text.Percent

/-!
# The URLs of contents and labels

The content of a file and a label each have a URL, which ends with the path of the file and with the
name of the label. From there they are read back, whatever characters they hold: two files never
have one URL and two labels neither, and none leads to another place than the one it names.
-/

namespace RouteWatch.Forge

open RouteWatch.Text (UrlPart prefix_dropLast_pieces length_pieces names_percentEncode percentEncode
  percentEncode_inj pieces)

/-! ### The parts of a URL -/

/-- A URL taken apart. -/
structure UrlParts where
  /-- What stands between the slashes before the query, the scheme and the host among it. -/
  segments : List (List Char)
  query : Option (List Char)
  fragment : Option (List Char)

/-- What stands before the first of a mark, and what stands behind it if there is one. -/
def cutAt (mark : Char) : List Char → List Char × Option (List Char)
  | [] => ([], none)
  | c :: cs => if c = mark then ([], some cs) else (c :: (cutAt mark cs).1, (cutAt mark cs).2)

/-- The parts of a URL: the fragment stands behind the first number sign, and the query behind the
first question mark before it. -/
def urlParts (url : String) : UrlParts :=
  let (rest, fragment) := cutAt '#' url.toList
  let (path, query) := cutAt '?' rest
  ⟨pieces '/' path, query, fragment⟩

/-- A URL goes on from another one within its last part: it has a query or a fragment only where
that one has, and the segments before the last one are the same. -/
structure UrlParts.GoesOnFrom (url base : UrlParts) : Prop where
  segments : base.segments.dropLast <+: url.segments
  query : url.query.isSome = base.query.isSome
  fragment : url.fragment.isSome = base.fragment.isSome

section Parts

variable {mark : Char} {t cs : List Char}

private theorem cutAt_of_notMem (h : mark ∉ t) : cutAt mark t = (t, none) := by
  induction t with
  | nil => rfl
  | cons c t ih =>
    rw [List.mem_cons, not_or] at h
    rw [cutAt, if_neg (Ne.symm h.1), ih h.2]

/-- Characters among which the mark is not go to what stands behind the first one, if there is one,
else to what stands before it. -/
theorem cutAt_append (cs : List Char) (h : mark ∉ t) :
    cutAt mark (cs ++ t) =
      match cutAt mark cs with
      | (before, some behind) => (before, some (behind ++ t))
      | (before, none) => (before ++ t, none) := by
  induction cs with
  | nil => exact cutAt_of_notMem h
  | cons c cs ih =>
    rw [List.cons_append, cutAt, cutAt]
    split
    · rfl
    · rw [ih]
      rcases cutAt mark cs with ⟨before, _ | behind⟩ <;> rfl

/-- A URL to which no mark of a query or a fragment is added goes on. -/
theorem goesOnFrom_append {base added : String} (hquery : '?' ∉ added.toList)
    (hfragment : '#' ∉ added.toList) :
    (urlParts (base ++ added)).GoesOnFrom (urlParts base) := by
  unfold urlParts
  rw [String.toList_append, cutAt_append _ hfragment]
  rcases cutAt '#' base.toList with ⟨rest, _ | fragment⟩
  · dsimp only
    rw [cutAt_append _ hquery]
    rcases cutAt '?' rest with ⟨path, _ | query⟩
    · exact ⟨prefix_dropLast_pieces _ _ _, rfl, rfl⟩
    · exact ⟨List.dropLast_prefix _, rfl, rfl⟩
  · exact ⟨List.dropLast_prefix _, rfl, rfl⟩

/-- A URL to which no slash is added either has no more segments. -/
theorem length_segments_append {base added : String} (hslash : '/' ∉ added.toList)
    (hquery : '?' ∉ added.toList) (hfragment : '#' ∉ added.toList) :
    (urlParts (base ++ added)).segments.length = (urlParts base).segments.length := by
  unfold urlParts
  rw [String.toList_append, cutAt_append _ hfragment]
  rcases cutAt '#' base.toList with ⟨rest, _ | fragment⟩
  · dsimp only
    rw [cutAt_append _ hquery]
    rcases cutAt '?' rest with ⟨path, _ | query⟩
    · dsimp only
      rw [length_pieces, length_pieces, List.count_append, List.count_eq_zero.mpr hslash,
        Nat.add_zero]
    · rfl
  · rfl

end Parts

/-! ### Requests of an action -/

/-- All requests that an action sends are such. -/
def Asks {α : Type} (p : Request → Prop) (a : Act Link α) : Prop :=
  ∀ l, ∀ q ∈ requestsOf (a.run l).trace, p q

section Rules

variable {α β : Type} {p : Request → Prop} {a : Act Link α} {q : Request}

theorem asks_pure (v : α) : Asks p (pure v : Act Link α) := fun _ _ ↦ nofun

theorem asks_fail (e : Failure) : Asks p (Act.fail e : Act Link α) := fun _ _ ↦ nofun

theorem asks_ofExcept (x : Except Failure α) : Asks p (Act.ofExcept x : Act Link α) := by
  cases x with
  | ok v => exact asks_pure v
  | error e => exact asks_fail e

theorem asks_state : Asks p (Act.state : Act Link Link) := fun _ _ ↦ nofun

theorem asks_setState (l : Link) : Asks p (Act.setState l : Act Link Unit) := fun _ _ ↦ nofun

/-- An event that is no request. -/
theorem asks_emit {e : Event} (he : requestsOf [e] = []) : Asks p (Act.emit e : Act Link Unit) := by
  intro l q hq
  change q ∈ requestsOf [e] at hq
  rw [he] at hq
  exact absurd hq List.not_mem_nil

theorem Asks.bind {f : α → Act Link β} (ha : Asks p a) (hf : ∀ v, Asks p (f v)) :
    Asks p (a >>= f) := by
  intro l
  have h := ha l
  rcases hrun : a.run l with ⟨_ | v, l₁, trace⟩
  · rw [Act.run_bind_error hrun]
    rwa [hrun] at h
  · rw [Act.run_bind_ok hrun, requestsOf_append]
    rw [hrun] at h
    exact List.forall_mem_append.mpr ⟨h, hf v l₁⟩

theorem Asks.recover {f : Failure → Act Link α} (ha : Asks p a) (hf : ∀ e, Asks p (f e)) :
    Asks p (a.recover f) := by
  intro l
  have h := ha l
  rcases hrun : a.run l with ⟨e | v, l₁, trace⟩
  · rw [Act.run_recover_error hrun, requestsOf_append]
    rw [hrun] at h
    exact List.forall_mem_append.mpr ⟨h, hf e l₁⟩
  · rw [Act.run_recover_ok hrun]
    rwa [hrun] at h

theorem Asks.attempt (ha : Asks p a) : Asks p a.attempt := fun l ↦ ha l

theorem asks_request (hq : p q) : Asks p (Link.request q) := by
  intro l
  by_cases hl : l.session = .closed
  · rw [run_request_closed hl]
    exact fun _ ↦ nofun
  · obtain ⟨trace, ⟨htrace, -⟩, hrun⟩ := run_request_open (q := q) hl
    rw [hrun]
    dsimp only
    rw [htrace]
    exact List.forall_mem_singleton.mpr hq

theorem asks_retry (attempts : Int) (ha : Asks p a) : Asks p (retry attempts a) := by
  have tries (attempt left : Nat) : Asks p (retryFrom a attempt left) := by
    induction left generalizing attempt with
    | zero => exact ha.recover fun e ↦ asks_fail _
    | succ left ih =>
      refine ha.recover fun e ↦ ?_
      cases delayAfter? e with
      | none => exact asks_fail e
      | some delay => exact (asks_emit rfl).bind fun _ ↦ (asks_emit rfl).bind fun _ ↦ ih _
  exact tries 0 _

theorem asks_postJson (url : String) (payload : Json)
    (hq : p ⟨.post, url, none, some payload, none⟩) : Asks p (Client.postJson url payload) := by
  refine ((asks_request hq).bind fun _ ↦ asks_ofExcept _).recover fun e ↦ ?_
  split
  · exact asks_fail _
  · exact asks_fail _

end Rules

/-! ### The URLs of a client -/

namespace Client

variable {c : Client}

theorem contentUrl_eq (c : Client) (path : String) :
    c.contentUrl path = c.url "contents/" ++ percentEncode .path path := by
  rw [contentUrl, url, url, String.append_assoc, String.append_assoc, String.append_assoc,
    String.append_assoc, String.append_assoc, String.append_assoc, String.append_assoc]

theorem labelUrl_eq (c : Client) (name : String) :
    c.labelUrl name = c.url "labels/" ++ percentEncode .segment name := by
  rw [labelUrl, url, url, String.append_assoc, String.append_assoc, String.append_assoc,
    String.append_assoc, String.append_assoc, String.append_assoc, String.append_assoc]

/-- A content is asked for at its URL only. -/
theorem asks_content (path : String) (ref : Token) :
    Asks (fun q ↦ q.url = c.contentUrl path) (c.content path ref) := by
  have hfetch : Asks (fun q ↦ q.url = c.contentUrl path) (c.fetchContent path ref) := by
    rw [fetchContent_eq]
    refine (asks_retry _ (Asks.bind (asks_request ?_) fun content ↦ asks_ofExcept _)).recover
      fun e ↦ asks_fail _
    rfl
  refine (asks_ofExcept _).bind fun key ↦ asks_state.bind fun l ↦ ?_
  split
  · exact asks_pure _
  · exact hfetch.bind fun text ↦ asks_state.bind fun l ↦ (asks_setState _).bind fun _ ↦ asks_pure _

/-- A label is looked up at its URL, and whatever is sent to make it is no look-up. -/
theorem asks_ensureLabel (change : Token) (name : String) :
    Asks (fun q ↦ q.method = .get → q.url = c.labelUrl name) (c.ensureLabel change name) := by
  have hadd : Asks (fun q ↦ q.method = .get → q.url = c.labelUrl name) (do
      let payload : Json := .object [("labels", .list [.text name])]
      let _ ← Client.postJson (c.url ("issues/" ++ change.plain ++ "/labels")) payload) :=
    (asks_postJson _ _ nofun).bind fun _ ↦ asks_pure ()
  have hlook : Asks (fun q ↦ q.method = .get → q.url = c.labelUrl name)
      (c.getJson (c.labelUrl name) none) :=
    asks_retry _ ((asks_request fun _ ↦ rfl).bind fun _ ↦ asks_ofExcept _)
  refine hlook.attempt.bind fun x ↦ ?_
  split
  · exact (asks_pure ()).bind fun _ ↦ hadd
  · exact ((asks_postJson _ _ nofun).bind fun _ ↦ asks_emit rfl).bind fun _ ↦ hadd
  · exact (asks_fail _).bind fun _ ↦ hadd

/-- The URLs of contents and labels tell of what they are, and lead to no other place. -/
structure Addresses (c : Client) : Prop where
  /-- The URL of a content ends with a name of its path, and no query or fragment begins there. -/
  content : ∀ path, ∃ t, c.contentUrl path = c.url "contents/" ++ t ∧
    UrlPart.path.Names t path ∧
    (urlParts (c.contentUrl path)).GoesOnFrom (urlParts (c.url "contents/"))
  /-- The URL of a label ends with a name of the label, and neither a query or fragment begins there
  nor another segment. -/
  label : ∀ name, ∃ t, c.labelUrl name = c.url "labels/" ++ t ∧
    UrlPart.segment.Names t name ∧
    (urlParts (c.labelUrl name)).GoesOnFrom (urlParts (c.url "labels/")) ∧
    (urlParts (c.labelUrl name)).segments.length = (urlParts (c.url "labels/")).segments.length
  /-- Contents of two paths have two URLs. -/
  contents : ∀ path path', c.contentUrl path = c.contentUrl path' → path = path'
  /-- Two labels have two URLs. -/
  labels : ∀ name name', c.labelUrl name = c.labelUrl name' → name = name'
  /-- A content is asked for there and nowhere else. -/
  asksContent : ∀ path ref, Asks (fun q ↦ q.url = c.contentUrl path) (c.content path ref)
  /-- A label is looked up there and nowhere else. -/
  asksLabel : ∀ change name,
    Asks (fun q ↦ q.method = .get → q.url = c.labelUrl name) (c.ensureLabel change name)

/-- Each path and each label has a URL of its own, from which it can be read back. -/
theorem addresses (c : Client) : c.Addresses where
  content path := by
    have hnames := names_percentEncode .path path
    refine ⟨_, c.contentUrl_eq path, hnames, ?_⟩
    rw [contentUrl_eq]
    exact goesOnFrom_append hnames.spelled.question_notMem hnames.spelled.number_notMem
  label name := by
    have hnames := names_percentEncode .segment name
    refine ⟨_, c.labelUrl_eq name, hnames, ?_⟩
    rw [labelUrl_eq]
    exact ⟨goesOnFrom_append hnames.spelled.question_notMem hnames.spelled.number_notMem,
      length_segments_append hnames.spelled.slash_notMem hnames.spelled.question_notMem
        hnames.spelled.number_notMem⟩
  contents path path' h := by
    rw [contentUrl_eq, contentUrl_eq, String.append_right_inj] at h
    exact percentEncode_inj.mp h
  labels name name' h := by
    rw [labelUrl_eq, labelUrl_eq, String.append_right_inj] at h
    exact percentEncode_inj.mp h
  asksContent := asks_content
  asksLabel := asks_ensureLabel

/-- A label with a slash, a blank and a number sign is one segment behind the others. -/
example : (urlParts (labelUrl ⟨{ repository := "o/r" }⟩ "area/routes #1")).segments.getLast? =
    some "area%2Froutes%20%231".toList := rfl

end Client

end RouteWatch.Forge
