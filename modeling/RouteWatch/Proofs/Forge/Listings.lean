import RouteWatch.Proofs.Except
import RouteWatch.Proofs.Forge.Attempts

/-!
# Reading a listing page by page

A forge gives a listing in pages of a hundred items, and any page may come only after replies that
ask for another attempt. A client that may make one attempt more than there are such replies in a
row reads all items, in order: it receives each page once, and goes on until one is not full. Where
the listing ends with a full page, or is empty, the last page is empty.
-/

namespace RouteWatch.Forge

/-- The items on a page of a listing, which are numbered from one on. -/
def pageOf (items : List Json) (page : Nat) : List Json := (items.drop (100 * (page - 1))).take 100

/-- The numbers of the pages of a listing up to the first that is not full. -/
def pageNumbers (items : List Json) : List Nat := List.range' 1 (items.length / 100 + 1)

/-- The request for a page. -/
def pageRequest (url : String) (page : Nat) : Request :=
  ⟨.get, url, some [("per_page", .int 100), ("page", .int page)], none, none⟩

/-- The value that a reply gives, if any. -/
def Reply.value? : Reply → Option Json
  | .response status (.json v) => if status < 300 then some v else none
  | _ => none

/-- How a forge comes to serve its pages to a client that makes so many attempts: before a page
there are some replies, fewer than the attempts, that ask for another one. -/
structure Serving (attempts : Nat) where
  before : Nat → List Reply
  status : Nat → Int
  retryable : ∀ page, ∀ reply ∈ before page, reply.pause? Content.value? ≠ none
  fewer : ∀ page, (before page).length < attempts
  succeeds : ∀ page, status page < 300

namespace Serving

variable {attempts : Nat}

/-- The page itself, as a reply. -/
def page (s : Serving attempts) (items : List Json) (page : Nat) : Reply :=
  .response (s.status page) (.json (.list (pageOf items page)))

/-- A page calls for no pause, -/
private theorem pause?_page (s : Serving attempts) (items : List Json) (page : Nat) :
    (s.page items page).pause? Content.value? = none := by
  rw [Serving.page, Reply.pause?, if_pos (s.succeeds page)]
  rfl

/-- and a call ends with its items. -/
private theorem ending_page (s : Serving attempts) (items : List Json) (page : Nat)
    (told : String → String) :
    (s.page items page).ending Content.value? told = .ok (.list (pageOf items page)) := by
  rw [Serving.page, Reply.ending, if_pos (s.succeeds page)]
  rfl

private theorem value?_page (s : Serving attempts) (items : List Json) (page : Nat) :
    (s.page items page).value? = some (.list (pageOf items page)) :=
  if_pos (s.succeeds page)

/-- The replies to the requests for a page. -/
def repliesTo (s : Serving attempts) (items : List Json) (page : Nat) : List Reply :=
  s.before page ++ [s.page items page]

/-- The replies to the requests for all pages. -/
def replies (s : Serving attempts) (items : List Json) : List Reply :=
  (pageNumbers items).flatMap (s.repliesTo items)

end Serving

/-- What a run does that reads a listing: it asks for each page until it comes and then for the next
one, so that it is given each page once, and takes no reply besides. -/
structure ReadsListing {α : Type} {attempts : Nat} (s : Serving attempts) (url : String)
    (items : List Json) (l : Link) (rest : List Reply) (o : Outcome Link α) : Prop where
  exchanged : exchanges l.replies (requestsOf o.trace) =
    (pageNumbers items).flatMap fun page ↦ (s.repliesTo items page).map (pageRequest url page, ·)
  received : ((exchanges l.replies (requestsOf o.trace)).filterMap fun (q, reply) ↦
    reply.value?.map (q, ·)) =
      (pageNumbers items).map fun page ↦ (pageRequest url page, .list (pageOf items page))
  state : o.state = { l with replies := rest }

variable {c : Client} {l : Link} {url : String} {items : List Json} {rest : List Reply}

/-! ### One page -/

/-- A reply that asks for another attempt gives no value. -/
theorem Reply.value?_eq_none {reply : Reply} (h : reply.pause? Content.value? ≠ none) :
    reply.value? = none := by
  cases reply with
  | broken message => rfl
  | response status content =>
    cases content with
    | text s => rfl
    | json v =>
      rw [Reply.value?]
      split
      · next hstatus =>
        rw [Reply.pause?, if_pos hstatus] at h
        exact absurd rfl h
      · rfl

/-- Where each item is asked for as often as there are replies to it, it is given these. -/
private theorem exchanges_flatMap (f : Nat → List Reply) (q : Nat → Request) (rest : List Reply)
    (pages : List Nat) :
    exchanges (pages.flatMap f ++ rest)
        (pages.flatMap fun page ↦ List.replicate (f page).length (q page)) =
      pages.flatMap fun page ↦ (f page).map (q page, ·) := by
  have heach (replies rest : List Reply) (q : Request) :
      exchanges (replies ++ rest) (List.replicate replies.length q) = replies.map (q, ·) := by
    induction replies with
    | nil => rfl
    | cons reply replies ih =>
      rw [List.length_cons, List.replicate_succ, List.map_cons, ← ih]
      rfl
  induction pages with
  | nil => rfl
  | cons page pages ih =>
    rw [List.flatMap_cons, List.flatMap_cons, List.flatMap_cons, List.append_assoc,
      exchanges_append, heach, List.length_replicate, List.drop_left, ih]

/-- A page is asked for until it comes. -/
private theorem run_page (s : Serving c.attempts) (url : String) (page : Nat)
    (hopen : l.session ≠ .closed)
    (hreplies : l.replies = s.repliesTo items page ++ rest) :
    ∃ trace, requestsOf trace =
        List.replicate (s.repliesTo items page).length (pageRequest url page) ∧
      (c.getJson url (pageRequest url page).params).run l =
        ⟨.ok (.list (pageOf items page)), { l with replies := rest }, trace⟩ := by
  obtain ⟨k, hread⟩ := persists_getJson c url (pageRequest url page).params hopen
  have hpage : l.replyAt (s.before page).length = s.page items page := by
    rw [Link.replyAt_eq, hreplies, Serving.repliesTo, List.append_assoc,
      List.getElem?_append_right (Nat.le_refl _), Nat.sub_self]
    rfl
  obtain rfl : k = (s.before page).length := by
    refine hread.eq_of_decides (fun i hi ↦ ?_) ?_ (s.fewer page)
    · rw [Link.replyAt_eq, hreplies, Serving.repliesTo, List.append_assoc,
        List.getElem?_append_left hi, List.getElem?_eq_getElem hi]
      exact s.retryable page _ (List.getElem_mem hi)
    · rw [hpage, s.pause?_page]
  have hlength : (s.repliesTo items page).length = (s.before page).length + 1 := by
    rw [Serving.repliesTo, List.length_append]
    rfl
  have hstate := hread.state
  have hanswer := hread.answer
  rw [hpage, s.ending_page] at hanswer
  rw [Link.skip, hreplies, List.drop_left' hlength] at hstate
  refine ⟨((c.getJson url (pageRequest url page).params).run l).trace, ?_, ?_⟩
  · rw [hlength]
    exact hread.requests
  · rw [← hanswer, ← hstate]

/-! ### All pages -/

/-- The items from a page on are those of the page and those from the next page on. -/
private theorem pageOf_append (items : List Json) (page : Nat) :
    pageOf items (page + 1) ++ items.drop (100 * (page + 1)) = items.drop (100 * page) := by
  rw [Nat.mul_add, Nat.mul_one, ← List.drop_drop, pageOf, Nat.add_sub_cancel,
    List.take_append_drop]

section Step

variable {page fuel : Nat} {batch more : List Json} {l₁ l₂ : Link} {trace later : List Event}

private theorem run_bind_run {α β : Type} {a : Act Link α} {f : α → Act Link β} {v : α}
    {x : Except Failure β} (h : a.run l = ⟨.ok v, l₁, trace⟩)
    (hf : (f v).run l₁ = ⟨x, l₂, later⟩) : (a >>= f).run l = ⟨x, l₂, trace ++ later⟩ := by
  rw [Act.run_bind_ok h, hf]

/-- Reading ends with a page that is not full. -/
private theorem run_pagesFrom_last
    (h : (c.getJson url (pageRequest url page).params).run l = ⟨.ok (.list batch), l₁, trace⟩)
    (hbatch : batch.length < Client.pageSize) :
    (c.pagesFrom url page (fuel + 1)).run l = ⟨.ok batch, l₁, trace⟩ := by
  refine (run_bind_run h ?_).trans (congrArg _ (List.append_nil trace))
  refine run_bind_run (run_ofExcept (.ok batch) l₁) ?_
  rw [if_pos hbatch]
  rfl

/-- Reading goes on after a full page. -/
private theorem run_pagesFrom_next
    (h : (c.getJson url (pageRequest url page).params).run l = ⟨.ok (.list batch), l₁, trace⟩)
    (hbatch : ¬ batch.length < Client.pageSize)
    (hmore : (c.pagesFrom url (page + 1) fuel).run l₁ = ⟨.ok more, l₂, later⟩) :
    (c.pagesFrom url page (fuel + 1)).run l = ⟨.ok (batch ++ more), l₂, trace ++ later⟩ := by
  refine run_bind_run h (run_bind_run (run_ofExcept (.ok batch) l₁) ?_)
  rw [if_neg hbatch]
  exact (run_bind_run hmore rfl).trans (congrArg _ (List.append_nil later))

end Step

/-- The induction is on the pages that follow the next one; each takes a reply, so that there is
always fuel for it. -/
private theorem run_pagesFrom (s : Serving c.attempts) (url : String) (page : Nat)
    {more fuel : Nat}
    (hpages : items.length / 100 = page + more) (hfuel : l.replies.length < fuel)
    (hopen : l.session ≠ .closed)
    (hreplies : l.replies =
      (List.range' (page + 1) (more + 1)).flatMap (s.repliesTo items) ++ rest) :
    ∃ trace, requestsOf trace = (List.range' (page + 1) (more + 1)).flatMap
        (fun page ↦ List.replicate (s.repliesTo items page).length (pageRequest url page)) ∧
      (c.pagesFrom url (page + 1) fuel).run l =
        ⟨.ok (items.drop (100 * page)), { l with replies := rest }, trace⟩ := by
  obtain ⟨fuel, rfl⟩ : ∃ n, fuel = n + 1 := Nat.exists_eq_add_one.mpr (by omega)
  induction more generalizing page fuel l with
  | zero =>
    rw [List.range'_one, List.flatMap_singleton] at hreplies ⊢
    obtain ⟨trace, htrace, hpage⟩ := run_page s url (page + 1) hopen hreplies
    refine ⟨trace, htrace, ?_⟩
    have hlast : pageOf items (page + 1) = items.drop (100 * page) := by
      refine List.take_of_length_le ?_
      rw [Nat.add_sub_cancel, List.length_drop]
      omega
    rw [hlast] at hpage
    refine run_pagesFrom_last hpage ?_
    rw [List.length_drop, Client.pageSize]
    omega
  | succ more ih =>
    rw [List.range'_succ, List.flatMap_cons, List.append_assoc] at hreplies
    obtain ⟨trace, htrace, hpage⟩ := run_page s url (page + 1) hopen hreplies
    have hless := congrArg List.length hreplies
    rw [List.length_append, Serving.repliesTo, List.length_append, List.length_singleton] at hless
    obtain ⟨fuel, rfl⟩ : ∃ n, fuel = n + 1 := Nat.exists_eq_add_one.mpr (by omega)
    obtain ⟨later, hlater, hmore⟩ := ih (page + 1)
      (l := { l with
        replies := (List.range' (page + 1 + 1) (more + 1)).flatMap (s.repliesTo items) ++ rest })
      (by omega) hopen rfl fuel (by dsimp only; omega)
    refine ⟨trace ++ later, ?_, ?_⟩
    · rw [requestsOf_append, htrace, hlater]
      rfl
    · rw [← pageOf_append items page]
      refine run_pagesFrom_next hpage ?_ hmore
      rw [pageOf, List.length_take, List.length_drop, Client.pageSize]
      omega

/-- Of the replies to the requests for a page only the last one gives a value. -/
private theorem received_repliesTo (s : Serving c.attempts) (items : List Json) (page : Nat)
    (q : Request) :
    ((s.repliesTo items page).map (q, ·)).filterMap (fun (q, reply) ↦ reply.value?.map (q, ·)) =
      [(q, .list (pageOf items page))] := by
  have hbefore : ((s.before page).filterMap fun reply ↦ reply.value?.map (q, ·)) = [] := by
    rw [List.filterMap_eq_nil_iff]
    intro reply hmem
    rw [Reply.value?_eq_none (s.retryable page reply hmem)]
    rfl
  have hpage : [s.page items page].filterMap (fun reply ↦ reply.value?.map (q, ·)) =
      [(q, .list (pageOf items page))] := by
    rw [List.filterMap_cons, s.value?_page]
    rfl
  rw [List.filterMap_map, Serving.repliesTo, List.filterMap_append]
  exact congrArg₂ (· ++ ·) hbefore hpage

/-- All pages are read, whatever is made of the items. -/
private theorem run_pages (s : Serving c.attempts) (url : String) (hopen : l.session ≠ .closed)
    (hreplies : l.replies = s.replies items ++ rest) :
    ∃ trace, (∀ {α : Type} (x : Except Failure α),
        ReadsListing s url items l rest ⟨x, { l with replies := rest }, trace⟩) ∧
      (c.pages url).run l = ⟨.ok items, { l with replies := rest }, trace⟩ := by
  obtain ⟨trace, htrace, hrun⟩ := run_pagesFrom s url 0
    (Nat.zero_add _).symm (Nat.lt_succ_self _) hopen hreplies
  have hexchanged : exchanges l.replies (requestsOf trace) = (pageNumbers items).flatMap fun page ↦
      (s.repliesTo items page).map (pageRequest url page, ·) := by
    rw [htrace, hreplies]
    exact exchanges_flatMap ..
  refine ⟨trace, fun x ↦ ⟨hexchanged, ?_, rfl⟩, hrun⟩
  dsimp only
  rw [hexchanged, List.filterMap_flatMap, List.map_eq_flatMap]
  simp only [received_repliesTo]

/-- What is made of the items takes no reply. -/
private theorem run_pages_bind {α : Type} (s : Serving c.attempts) (url : String)
    (hopen : l.session ≠ .closed) (hreplies : l.replies = s.replies items ++ rest)
    {f : List Json → Except Failure α} {x : Except Failure α} (hf : f items = x) :
    ReadsListing s url items l rest ((c.pages url >>= fun items ↦ Act.ofExcept (f items)).run l) ∧
      ((c.pages url >>= fun items ↦ Act.ofExcept (f items)).run l).answer = x := by
  obtain ⟨trace, hreads, hrun⟩ := run_pages s url hopen hreplies
  rw [run_bind_run hrun (run_ofExcept (f items) _), List.append_nil]
  exact ⟨hreads _, hf⟩

/-! ### What is listed -/

/-- The names of the files among the items, where each that is not removed has one. -/
private theorem changedNames_eq {files : List Fields}
    (h : ∀ file ∈ files, fieldOrNull file "status" ≠ .text "removed" →
      ∃ name, Fields.get? file "filename" = some name) :
    Client.changedNames (files.map .object) =
      .ok ((files.filter fun file ↦ fieldOrNull file "status" ≠ .text "removed").filterMap
        (Fields.get? · "filename")) := by
  induction files with
  | nil => rfl
  | cons file files ih =>
    have hrest := ih fun other hmem ↦ h other (List.mem_cons_of_mem _ hmem)
    rw [List.map_cons, Client.changedNames]
    by_cases hremoved : fieldOrNull file "status" = .text "removed"
    · rw [if_pos hremoved, hrest, List.filter_cons_of_neg (by simpa using hremoved)]
    · obtain ⟨name, hname⟩ := h file (List.mem_cons_self ..) hremoved
      rw [if_neg hremoved, Client.fieldOf, hname, hrest,
        List.filter_cons_of_pos (by simpa using hremoved)]
      simp only [List.filterMap_cons, hname]
      rfl

/-- Reading in pages loses nothing and repeats nothing, of however many items, as long as the
replies that ask for another attempt leave one: the items are those of the listing, the files are
those that are not removed, and each comment is one annotation. -/
theorem Client.pages_complete (c : Client) (items : List Json) (s : Serving c.attempts) (l : Link)
    (rest : List Reply) (hopen : l.session ≠ .closed)
    (hreplies : l.replies = s.replies items ++ rest) :
    (∀ url, ReadsListing s url items l rest ((c.pages url).run l) ∧
      ((c.pages url).run l).answer = .ok items) ∧
    (∀ change (files : List Fields), items = files.map .object →
      (∀ file ∈ files, fieldOrNull file "status" ≠ .text "removed" →
        ∃ name, Fields.get? file "filename" = some name) →
      ReadsListing s (c.url ("pulls/" ++ change.plain ++ "/files")) items l rest
          ((c.changedFiles change).run l) ∧
        ((c.changedFiles change).run l).answer =
          .ok ((files.filter fun file ↦ fieldOrNull file "status" ≠ .text "removed").filterMap
            (Fields.get? · "filename"))) ∧
    ∀ change, (∀ comment ∈ items, ∃ annotation, annotationOf comment = .ok annotation) →
      ReadsListing s (c.url ("pulls/" ++ change.plain ++ "/comments")) items l rest
          ((c.annotations change).run l) ∧
        ∃ annotations, ((c.annotations change).run l).answer = .ok annotations ∧
          items.map annotationOf = annotations.map .ok := by
  refine ⟨fun url ↦ ?_, fun change files hitems hnames ↦ ?_, fun change hcomments ↦ ?_⟩
  · obtain ⟨trace, hreads, hrun⟩ := run_pages s url hopen hreplies
    rw [hrun]
    exact ⟨hreads _, rfl⟩
  · subst hitems
    exact run_pages_bind s _ hopen hreplies (changedNames_eq hnames)
  · obtain ⟨annotations, hparsed, hall⟩ := exists_mapM_eq_ok hcomments
    obtain ⟨hreads, hanswer⟩ := run_pages_bind s
      (c.url ("pulls/" ++ change.plain ++ "/comments")) hopen hreplies hparsed
    exact ⟨hreads, annotations, hanswer, hall⟩

/-- A forge that is busy once before each page. -/
private def busyOnce : Serving 2 where
  before _ := [.response 503 (.text "busy")]
  status _ := 200
  retryable _ reply hmem := by
    rw [List.mem_singleton.mp hmem]
    exact nofun
  fewer _ := Nat.lt_succ_self 1
  succeeds _ := by decide

/-- A listing that ends with a full page has an empty one more. -/
theorem Client.pages_complete_full_page :
    let items := List.replicate 100 (.object [("filename", .text "a.js")])
    let l : Link := .fresh [.response 503 (.text "busy"), .response 200 (.json (.list items)),
      .response 503 (.text "busy"), .response 200 (.json (.list []))] .lent
    l.session ≠ .closed ∧ l.replies = busyOnce.replies items ++ [] ∧
      ((Client.changedFiles ⟨{ repository := "o/r", maxRetries := 2 }⟩ (.int 7)).run l).answer =
        .ok (List.replicate 100 (.text "a.js")) := by
  intro items l
  have hpages : pageNumbers items = [1, 2] := by
    rw [pageNumbers, List.length_replicate]
    rfl
  have hreplies : l.replies = busyOnce.replies items ++ [] := by
    rw [Serving.replies, hpages]
    rfl
  refine ⟨nofun, hreplies, ?_⟩
  have hread := (Client.pages_complete ⟨{ repository := "o/r", maxRetries := 2 }⟩ items busyOnce l
    [] nofun hreplies).2.1 (.int 7) (List.replicate 100 [("filename", .text "a.js")]) rfl ?_
  · exact hread.2
  · intro file hmem _
    rw [List.eq_of_mem_replicate hmem]
    exact ⟨_, rfl⟩

end RouteWatch.Forge
