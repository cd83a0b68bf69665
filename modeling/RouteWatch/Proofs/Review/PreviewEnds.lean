import RouteWatch.Proofs.Config.Fallback
import RouteWatch.Proofs.Diff.Header
import RouteWatch.Proofs.Pattern.Groups
import RouteWatch.Proofs.Review.Preview
import RouteWatch.Server.Review

/-!
# How previews end

A preview is expected to end with a report or with a trouble of the review, such as a diff that
cannot be parsed. It does exactly where the configuration's pattern has no flaw and gives an
identifier where it first matches, its comment can be read, and no number of the diff's headers has
too many digits. The pattern that a run begins with gives an identifier wherever it matches; of any
other a configuration is accepted without a look at it, and so is a comment that cannot be read.

Patterns in a form that is not read, as `Pattern.Flaw.beyond` has them, are left out: of a
configuration with one of these nothing is said.
-/

namespace RouteWatch

open RouteWatch.Diff (FileDiff HeaderFault firstUnread hunksOf hunksOf_cases ranges?)
open RouteWatch.Text (lines)

/-- A computation that ends with a value or with trouble. -/
def Expected {α : Type} (x : Except Failure α) : Prop := ∀ e, x = .error e → ∃ t, e = .trouble t

section

variable {α : Type}

@[simp] theorem expected_ok (a : α) : Expected (.ok a) := nofun

theorem expected_error_iff {e : Failure} :
    Expected (.error e : Except Failure α) ↔ ∃ t, e = .trouble t :=
  ⟨fun h ↦ h e rfl, fun ht _ he ↦ Except.error.inj he ▸ ht⟩

end

/-- No flaw of a pattern is a trouble. -/
theorem ofFlaw_ne_trouble (flaw : Pattern.Flaw) (t : Trouble) :
    Failure.ofFlaw flaw ≠ .trouble t := by
  cases flaw <;> exact nofun

/-- No fault in reading a text is a trouble. -/
theorem textFault_ne_trouble (fault : TextFault) (t : Trouble) : fault.failure ≠ .trouble t := by
  cases fault <;> exact nofun

/-! ### Where a pattern names a router -/

namespace Pattern

/-- The leftmost match of a pattern in a line: the place after it. -/
def match? (p : Pattern) (line : String) : Option Place := p.node.searchFrom [] 0 line.toList

/-- In the first line in which the pattern matches, if there is one, its first group takes part in
the match. -/
def NamesRouter (p : Pattern) (ls : List String) : Prop :=
  ∀ place, ls.findSome? p.match? = some place →
    p.groups ≠ 0 ∧ (place.groups.lookup 1).isSome = true

variable {p : Pattern}

private theorem exists_declaredFrom_iff {ls : List String} (n : Nat) :
    (∃ blocks, (Scanner.ofPattern p).declaredFrom n ls = .ok blocks) ↔ p.NamesRouter ls := by
  unfold NamesRouter
  induction ls generalizing n with
  | nil => exact iff_of_true ⟨[], rfl⟩ nofun
  | cons l ls ih =>
    have hdeclares : (Scanner.ofPattern p).declares l = firstGroup p l := rfl
    rw [Scanner.declaredFrom, List.findSome?_cons, hdeclares, firstGroup, ← match?]
    cases p.match? l with
    | none => exact ih (n + 1)
    | some place =>
      simp only [Option.some.injEq, forall_eq']
      by_cases hgroups : p.groups = 0
      · simp [hgroups]
      · cases place.groups.lookup 1 <;> simp [hgroups]

/-- Scanning succeeds exactly where the first line that declares a router names it. -/
theorem exists_scan_iff {ls : List String} :
    (∃ blocks, (Scanner.ofPattern p).scan none ls = .ok blocks) ↔ p.NamesRouter ls :=
  exists_declaredFrom_iff 1

/-- A pattern whose first group takes part in every match names a router in all lines. -/
theorem namesRouter_of_takes (hgroups : p.groups ≠ 0) (htakes : p.node.takes 1 = true)
    (ls : List String) : p.NamesRouter ls := by
  intro place hplace
  obtain ⟨l, -, hl⟩ := List.exists_of_findSome?_eq_some hplace
  exact ⟨hgroups, Node.has_of_searchFrom htakes hl⟩

end Pattern

/-! ### Reviews -/

namespace Reviewer

variable {r : Reviewer} {path diff : String} {content base : Option String}
  {existing : List Annotation}

private theorem readDiff_of_malformed (path : String) {l : String}
    (h : hunksOf diff = .error (.malformed l)) :
    ∃ t, readDiff diff path = .error (.trouble t) :=
  ⟨_, by rw [readDiff, FileDiff.ofText, h]; rfl⟩

private theorem readDiff_of_tooManyDigits {n : Nat} (h : hunksOf diff = .error (.tooManyDigits n)) :
    readDiff diff path = .error (.tooManyDigits n) := by
  rw [readDiff, FileDiff.ofText, h]
  rfl

/-- Where the diff can be read, the content is at hand and blocks are found in it, a review ends as
the search for removed blocks does. -/
private theorem expected_preview_of_blocks {text : String} {d : FileDiff} {blocks : List Block}
    (hd : readDiff diff path = .ok d) (hblocks : r.scanner.scan none (lines text) = .ok blocks) :
    Expected (r.preview path (some text) diff existing base) ↔
      ∃ baseBlocks, r.scanner.scan none (lines (base.getD "")) = .ok baseBlocks := by
  have hscan : scanText r.scanner (some text) (some path) none = .ok blocks :=
    scanText_eq_ok_iff.mpr ⟨text, rfl, hblocks⟩
  rw [preview, hd, hscan]
  simp only [bind, Except.bind]
  cases hremoved : r.removedIn path d base with
  | ok removed =>
    obtain ⟨baseBlocks, hbase, -⟩ := removedIn_eq_ok_iff.mp hremoved
    exact iff_of_true (expected_ok _) ⟨baseBlocks, hbase⟩
  | error e =>
    refine iff_of_false (fun h ↦ ?_) ?_
    · obtain ⟨t, rfl⟩ := expected_error_iff.mp h
      exact removedIn_ne_trouble hremoved
    · rintro ⟨baseBlocks, hbase⟩
      exact nomatch hremoved.symm.trans (removedIn_eq_ok_iff.mpr ⟨baseBlocks, hbase, rfl⟩)

/-- A review ends as expected exactly where no header up to the first that is malformed has a number
of too many digits, and, if all headers are read and the content is at hand, blocks can be looked
for in both revisions. -/
theorem expected_preview_iff :
    Expected (r.preview path content diff existing base) ↔
      (∀ l, firstUnread diff = some l → ranges? l.toList = none) ∧
        (firstUnread diff = none → ∀ text, content = some text →
          (∃ blocks, r.scanner.scan none (lines text) = .ok blocks) ∧
            ∃ blocks, r.scanner.scan none (lines (base.getD "")) = .ok blocks) := by
  rcases hunksOf_cases diff with ⟨hnone, hs, hread⟩ | ⟨l, hl, hranges, hread⟩ |
    ⟨l, n, hl, hranges, hread⟩
  · have hd : readDiff diff path = .ok (.ofHunks path hs) := by
      rw [readDiff_eq_ok_iff, FileDiff.ofText, hread]
      rfl
    rw [hnone]
    simp only [reduceCtorEq, false_implies, implies_true, true_and, forall_const]
    cases content with
    | none =>
      refine iff_of_true ?_ nofun
      rw [preview, hd]
      exact expected_error_iff.mpr ⟨_, rfl⟩
    | some text =>
      simp only [Option.some.injEq, forall_eq']
      cases hscan : r.scanner.scan none (lines text) with
      | ok blocks =>
        rw [expected_preview_of_blocks hd hscan]
        simp
      | error fault =>
        refine iff_of_false ?_ (by simp)
        rw [preview, hd, scanText, scanLines, hscan]
        exact fun h ↦ by simpa using expected_error_iff.mp h
  · refine iff_of_true ?_ ⟨fun k hk ↦ ?_, fun hnone ↦ nomatch hl.symm.trans hnone⟩
    · obtain ⟨t, ht⟩ := readDiff_of_malformed path hread
      rw [preview, ht]
      exact expected_error_iff.mpr ⟨t, rfl⟩
    · obtain rfl := Option.some.inj (hl.symm.trans hk)
      exact hranges
  · refine iff_of_false ?_ fun h ↦ hranges (h.1 l hl)
    rw [preview, readDiff_of_tooManyDigits hread]
    exact fun h ↦ by simpa using expected_error_iff.mp h

end Reviewer

/-! ### Configurations -/

namespace Config

variable {c : Config} {t : Tree} {path diff : String} {content base : Option String}
  {existing : List Annotation}

/-- The review of a file with a configuration. -/
def preview (c : Config) (path : String) (content : Option String) (diff : String)
    (existing : List Annotation) (base : Option String) : Act Tree FileReport := do
  let r ← Reviewer.ofConfig c
  Act.ofExcept (r.preview path content diff existing base)

/-- What a preview has to find to end as expected. -/
structure CanPreview (c : Config) (t : Tree) (content : Option String) (diff : String)
    (base : Option String) : Prop where
  /-- The comment can be read. -/
  comment : c.CommentUsable t
  /-- No header up to the first that is malformed has a number of too many digits. -/
  headers : ∀ l, firstUnread diff = some l → ranges? l.toList = none
  /-- No flaw is found in the pattern. -/
  pattern : ∀ flaw, Pattern.read c.declaration = .error flaw → flaw = .beyond
  /-- The pattern names a router in either revision, if these are looked at. -/
  names : ∀ p, Pattern.read c.declaration = .ok p → firstUnread diff = none →
    ∀ text, content = some text →
      p.NamesRouter (lines text) ∧ p.NamesRouter (lines (base.getD ""))

/-- With the pattern that a run begins with, only the comment and the headers are in the way of a
preview. -/
theorem canPreview_of_default (h : c.declaration = defaultDeclaration) :
    c.CanPreview t content diff base ↔
      c.CommentUsable t ∧ ∀ l, firstUnread diff = some l → ranges? l.toList = none := by
  obtain ⟨p, hread, hgroups, htakes⟩ : ∃ p, Pattern.read defaultDeclaration = .ok p ∧
      p.groups ≠ 0 ∧ p.node.takes 1 = true := ⟨_, rfl, by decide, rfl⟩
  have hnames (ls : List String) : p.NamesRouter ls := p.namesRouter_of_takes hgroups htakes ls
  constructor
  · rintro ⟨hcomment, hheaders, -, -⟩
    exact ⟨hcomment, hheaders⟩
  · rintro ⟨hcomment, hheaders⟩
    rw [← h] at hread
    refine ⟨hcomment, hheaders, fun _ he ↦ (nomatch hread.symm.trans he),
      fun q hq _ _ _ ↦ ?_⟩
    obtain rfl := Except.ok.inj (hread.symm.trans hq)
    exact ⟨hnames _, hnames _⟩

/-- A configuration has a reviewer where its pattern and its comment can be read, and else fails
with no trouble of a review. -/
private theorem ofConfig_cases (c : Config) (t : Tree) :
    (∃ p comment, Pattern.read c.declaration = .ok p ∧ c.CommentUsable t ∧
        ((Reviewer.ofConfig c).run t).answer = .ok ⟨c, .ofPattern p, comment⟩) ∨
      ∃ e, ((Reviewer.ofConfig c).run t).answer = .error e ∧ (∀ trouble, e ≠ .trouble trouble) ∧
        ¬((∃ p, Pattern.read c.declaration = .ok p) ∧ c.CommentUsable t) := by
  have hanswer : ((Reviewer.ofConfig c).run t).answer =
      Reviewer.scannerFor c.declaration >>= fun scanner ↦
        (c.readComment.run t).answer.map (⟨c, scanner, ·⟩) := by
    show (Reviewer.ofConfig c).Ends t fun x _ ↦ x = _
    rw [Reviewer.ofConfig, Act.ends_bind, Act.ends_ofExcept]
    cases Reviewer.scannerFor c.declaration with
    | error e => rfl
    | ok scanner =>
      dsimp only
      rw [Act.ends_bind, Act.Ends]
      cases (c.readComment.run t).answer <;> rfl
  rw [hanswer, Reviewer.scannerFor]
  cases hpattern : Pattern.read c.declaration with
  | error flaw =>
    refine .inr ⟨_, rfl, ofFlaw_ne_trouble flaw, ?_⟩
    rintro ⟨⟨p, hp⟩, -⟩
    cases hp
  | ok p =>
    cases hcomment : (c.readComment.run t).answer with
    | error e =>
      obtain ⟨fault, -, rfl⟩ := exists_of_answer_readComment hcomment
      refine .inr ⟨_, rfl, textFault_ne_trouble fault, ?_⟩
      rintro ⟨-, husable⟩
      cases hcomment.symm.trans (answer_readComment_eq_ok_iff.mpr ⟨husable, rfl⟩)
    | ok comment =>
      exact .inl ⟨p, comment, rfl, (answer_readComment_eq_ok_iff.mp hcomment).1, rfl⟩

/-- What goes on with the reviewer of a configuration ends well exactly where there is one and it
can preview, if it ends so where the review of the reviewer does. -/
private theorem canPreview_iff {α : Type} {good : Except Failure α → Prop}
    {f : Reviewer → Except Failure α} (hread : Pattern.read c.declaration ≠ .error .beyond)
    (herror : ∀ e, (∀ trouble, e ≠ .trouble trouble) → ¬good (.error e))
    (hf : ∀ r : Reviewer, good (f r) ↔ Expected (r.preview path content diff existing base)) :
    good (((Reviewer.ofConfig c).run t).answer >>= f) ↔ c.CanPreview t content diff base := by
  rcases ofConfig_cases c t with ⟨p, comment, hpattern, husable, hr⟩ | ⟨e, hr, he, hnot⟩
  · rw [hr]
    show good (f _) ↔ _
    rw [hf, Reviewer.expected_preview_iff]
    simp only [Pattern.exists_scan_iff]
    constructor
    · rintro ⟨hheaders, hnames⟩
      refine ⟨husable, hheaders, fun _ he ↦ (nomatch hpattern.symm.trans he),
        fun q hq ↦ ?_⟩
      obtain rfl := Except.ok.inj (hpattern.symm.trans hq)
      exact hnames
    · rintro ⟨-, hheaders, -, hnames⟩
      exact ⟨hheaders, hnames p hpattern⟩
  · rw [hr]
    refine iff_of_false (herror e he) fun h ↦ hnot ⟨?_, h.comment⟩
    cases hpattern : Pattern.read c.declaration with
    | ok p => exact ⟨p, rfl⟩
    | error flaw => exact absurd (h.pattern flaw hpattern ▸ hpattern) hread

/-- A preview ends as expected exactly where it can preview. -/
private theorem expected_answer_preview_iff
    (hread : Pattern.read c.declaration ≠ .error .beyond) :
    Expected ((c.preview path content diff existing base).run t).answer ↔
      c.CanPreview t content diff base := by
  have hanswer : ((c.preview path content diff existing base).run t).answer =
      ((Reviewer.ofConfig c).run t).answer >>= fun r ↦
        r.preview path content diff existing base :=
    Act.answer_bind fun r s ↦ by cases r.preview path content diff existing base <;> rfl
  rw [hanswer]
  refine canPreview_iff hread (fun e he h ↦ ?_) fun r ↦ Iff.rfl
  obtain ⟨trouble, rfl⟩ := expected_error_iff.mp h
  exact he trouble rfl

end Config

/-! ### The server -/

namespace Server

/-- A request is answered with what was asked for or as one that cannot be processed. -/
def Answered (x : Except Failure Response) : Prop :=
  ∃ response, x = .ok response ∧ (response.status = 200 ∨ response.status = 422)

/-- The answer to an order by how the review ends. -/
def responseTo (x : Except Failure FileReport) : Except Failure Response :=
  match x with
  | .ok report => .ok (.ok report.toJson)
  | .error (.trouble t) => .ok (.refusal 422 t.text)
  | .error failure => .error failure

private theorem answered_responseTo_iff {x : Except Failure FileReport} :
    Answered (responseTo x) ↔ Expected x := by
  cases x with
  | ok report => exact iff_of_true ⟨_, rfl, .inl rfl⟩ (expected_ok report)
  | error e =>
    rw [expected_error_iff]
    cases e with
    | trouble t => exact iff_of_true ⟨_, rfl, .inr rfl⟩ ⟨t, rfl⟩
    | _ => exact iff_of_false (fun ⟨_, h, _⟩ ↦ nomatch h) nofun

private theorem answered_servePreview_iff {c : Config} {w : World} {order : PreviewOrder}
    (hread : Pattern.read c.declaration ≠ .error .beyond) :
    Answered ((servePreview c order).run w).answer ↔
      c.CanPreview w.tree (some order.content) order.diff order.base := by
  have hanswer : ((servePreview c order).run w).answer =
      ((World.onTree (Reviewer.ofConfig c)).run w).answer >>= fun r ↦
        responseTo (r.preview order.path (some order.content) order.diff order.existing
          order.base) := by
    refine Act.answer_bind fun r w ↦ ?_
    cases r.preview order.path (some order.content) order.diff order.existing order.base with
    | ok report => rfl
    | error e => cases e <;> rfl
  rw [hanswer]
  exact Config.canPreview_iff hread (fun e _ ⟨_, h, _⟩ ↦ nomatch h) fun r ↦ answered_responseTo_iff

end Server

/-- With any configuration whose pattern is not beyond what is read, so with each of these that is
accepted, the review of a file ends with a report or a trouble, and the request for it is answered
with the report or as one that cannot be processed, exactly where the pattern has no flaw and names
a router in either revision, the comment can be read, and no header up to the first that is
malformed has a number of too many digits. -/
theorem preview_expected_iff (c : Config) (hread : Pattern.read c.declaration ≠ .error .beyond) :
    (∀ (t : Tree) (path : String) (content : Option String) (diff : String)
        (existing : List Annotation) (base : Option String),
      Expected ((c.preview path content diff existing base).run t).answer ↔
        c.CanPreview t content diff base) ∧
      ∀ (w : World) (order : Server.PreviewOrder),
        Server.Answered ((Server.servePreview c order).run w).answer ↔
          c.CanPreview w.tree (some order.content) order.diff order.base :=
  ⟨fun _ _ _ _ _ _ ↦ Config.expected_answer_preview_iff hread,
    fun _ _ ↦ Server.answered_servePreview_iff hread⟩

/-- With the configuration that a run begins with, the review of a file with a router and a changed
route ends as expected. -/
theorem preview_expected_default :
    Pattern.read ({} : Config).declaration ≠ .error .beyond ∧
      Expected ((({} : Config).preview "r.js"
        (some "const router = express.Router();\nrouter.get(list);\n")
        "@@ -1,0 +2 @@\n+router.get(list);\n" [] (some "x")).run .empty).answer := by
  have hread : Pattern.read ({} : Config).declaration ≠ .error .beyond := nofun
  refine ⟨hread, ((preview_expected_iff {} hread).1 _ _ _ _ _ _).mpr ?_⟩
  exact (Config.canPreview_of_default rfl).mpr ⟨nofun, nofun⟩

/-- Configurations that are accepted and with which reviews fail otherwise: one names a file for the
comment that is no UTF-8, one gives a text that is no pattern, one a pattern without a group. -/
theorem preview_unexpected_accepted :
    (∃ c, ((ConfigSource.load ⟨⟨"", ["config.json"]⟩,
          [("ROUTE_REVIEW_COMMENT_BODY_PATH", "comment.md")]⟩ []).run
            ⟨[(["comment.md"], .file [0xff])]⟩).answer = .ok c ∧
        ¬Expected ((c.preview "r.js" (some "") "" [] none).run
          ⟨[(["comment.md"], .file [0xff])]⟩).answer) ∧
      (∃ c, ((ConfigSource.load ⟨⟨"", ["config.json"]⟩,
          [("ROUTE_REVIEW_DECLARATION_PATTERN", "(")]⟩ []).run .empty).answer = .ok c ∧
        ¬Expected ((c.preview "r.js" (some "") "" [] none).run .empty).answer) ∧
      ∃ c, ((ConfigSource.load ⟨⟨"", ["config.json"]⟩,
          [("ROUTE_REVIEW_DECLARATION_PATTERN", "x")]⟩ []).run .empty).answer = .ok c ∧
        ¬Expected ((c.preview "r.js" (some "x") "" [] none).run .empty).answer := by
  refine ⟨⟨{ commentPath := some "comment.md" }, rfl, fun h ↦ ?_⟩,
    ⟨{ declaration := "(" }, rfl, fun h ↦ ?_⟩, { declaration := "x" }, rfl, fun h ↦ ?_⟩
  · obtain ⟨t, ht⟩ := h _ rfl
    exact nomatch ht
  · obtain ⟨t, ht⟩ := h _ rfl
    exact nomatch ht
  · obtain ⟨t, ht⟩ := h _ rfl
    exact nomatch ht

end RouteWatch
