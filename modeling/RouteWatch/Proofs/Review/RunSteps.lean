import RouteWatch.Proofs.Review.Memory
import RouteWatch.Proofs.Review.Replan
import RouteWatch.Review.Run

/-!
# What a run creates, file by file

Of the annotations that are planned for a file when no call fails, a run creates the first ones:
all of them where no call fails, and fewer where it is stopped or cannot read the base revision.
-/

namespace RouteWatch

open Reviewer (Findings)

namespace Memory

variable {r : Reviewer} {m m' m'' : Memory} {ds ds' : List Draft} {existing : List Annotation}
  {path : String}

/-! ### What is planned when no call fails -/

/-- The content of a file's base revision that a review looks at. -/
def baseFor (m : Memory) (r : Reviewer) (path : String) : Option String :=
  if r.config.checkRemoved then some ((m.content? path (.text baseRef)).getD "") else none

/-- What a review finds in a file of the change. -/
def findings (m : Memory) (r : Reviewer) (path : String) : Except Failure Findings := do
  let content ← m.read path (.text headRef)
  r.findings path (some content) (m.diffOf path) (m.baseFor r path)

/-- What is planned for a file of the change. -/
def planned (m : Memory) (r : Reviewer) (existing : List Annotation) (path : String) :
    List Draft :=
  match m.findings r path with
  | .ok f => if isRouteFile r.config path then (f.report r path existing).planned else []
  | .error _ => []

/-- A file does not stop a run. -/
def Passes (m : Memory) (r : Reviewer) (path : String) : Prop :=
  isRouteFile r.config path = true → ∀ e, m.findings r path = .error e →
    ∃ t, e = .trouble t ∧ t.concernsFile = true ∧ r.config.failFast = false

theorem Grows.read {added : List Annotation} (h : m.Grows m' added) (ref : Token) :
    m'.read path ref = m.read path ref := by
  rw [Memory.read, Memory.read, h.content?]

theorem Grows.baseFor {added : List Annotation} (h : m.Grows m' added) :
    m'.baseFor r path = m.baseFor r path := by
  rw [Memory.baseFor, Memory.baseFor, h.content?]

theorem Grows.findings {added : List Annotation} (h : m.Grows m' added) :
    m'.findings r path = m.findings r path := by
  rw [Memory.findings, Memory.findings, h.read, h.diffOf, h.baseFor]

theorem Grows.planned {added : List Annotation} (h : m.Grows m' added) :
    m'.planned r existing path = m.planned r existing path := by
  rw [Memory.planned, Memory.planned, h.findings]

theorem Grows.passes_iff {added : List Annotation} (h : m.Grows m' added) :
    m'.Passes r path ↔ m.Passes r path := by
  rw [Passes, Passes, h.findings]

/-! ### Creating annotations -/

/-- The second state has the annotations of some drafts in addition. -/
def Creates (m m' : Memory) (ds : List Draft) : Prop :=
  ∃ added, m.Grows m' added ∧ added.map Annotation.posting = ds.map Draft.posting ∧
    ∀ a ∈ added, a.author = some m.author

theorem Grows.creates (h : m.Grows m' []) : m.Creates m' [] :=
  ⟨[], h, rfl, fun _ ha ↦ absurd ha List.not_mem_nil⟩

theorem Creates.trans (h : m.Creates m' ds) (h' : m'.Creates m'' ds') :
    m.Creates m'' (ds ++ ds') := by
  obtain ⟨added, hgrows, hposting, hauthor⟩ := h
  obtain ⟨added', hgrows', hposting', hauthor'⟩ := h'
  refine ⟨added ++ added', hgrows.trans hgrows', ?_, ?_⟩
  · rw [List.map_append, List.map_append, hposting, hposting']
  · intro a ha
    rcases List.mem_append.mp ha with ha | ha
    · exact hauthor a ha
    · rw [← hgrows.author]
      exact hauthor' a ha

/-- Nothing else but the annotations of drafts differs. -/
theorem Creates.grows (h : m.Creates m' ds) : ∃ added, m.Grows m' added :=
  ⟨h.choose, h.choose_spec.1⟩

/-- The creation of annotations for drafts in order gets to the end where no call fails. -/
theorem ends_createAll (change : Token) (delay : Seconds) (previous : Option String)
    (ds : List Draft) :
    (createAll backend change delay previous ds).Ends m fun x m' ↦
      ∃ taken, taken <+: ds ∧ m.Creates m' taken ∧
        (m.rules = [] → (∃ ids, x = .ok ids) ∧ taken = ds) := by
  induction ds generalizing m previous with
  | nil =>
    exact ⟨[], List.nil_prefix, (Grows.refl m).creates, fun _ ↦ ⟨⟨[], rfl⟩, rfl⟩⟩
  | cons d ds ih =>
    have hstep : (do
        let id ← backend.create change d
        Act.print ("[Reconciler] Created annotation " ++ id.plain ++ " on " ++ d.path ++ ":" ++
          Text.showInt d.line)
        let ids ← createAll backend change delay (some d.path) ds
        return id :: ids : Act Memory (List Token)).Ends m fun x m' ↦
        ∃ taken, taken <+: d :: ds ∧ m.Creates m' taken ∧
          (m.rules = [] → (∃ ids, x = .ok ids) ∧ taken = d :: ds) := by
      rw [Act.ends_bind]
      apply Act.Ends.imp (ends_create change d)
      rintro x m' (⟨hgrows, id, rfl⟩ | ⟨hgrows, hrules, t, rfl⟩)
      · have hcreates : m.Creates m' [d] :=
          ⟨_, hgrows, rfl, List.forall_mem_singleton.mpr rfl⟩
        simp only [Act.ends_bind, Act.ends_print, Act.ends_pure]
        apply Act.Ends.imp (ih (some d.path))
        rintro y m'' ⟨taken, htaken, hcreates', hall⟩
        have hbegins : d :: taken <+: d :: ds := (List.prefix_cons_inj d).mpr htaken
        rw [hgrows.rules] at hall
        cases y with
        | ok ids =>
          refine ⟨d :: taken, hbegins, hcreates.trans hcreates', fun hrules ↦ ?_⟩
          exact ⟨⟨_, rfl⟩, congrArg (d :: ·) (hall hrules).2⟩
        | error e =>
          refine ⟨d :: taken, hbegins, hcreates.trans hcreates', fun hrules ↦ ?_⟩
          obtain ⟨ids, hids⟩ := (hall hrules).1
          cases hids
      · exact ⟨[], List.nil_prefix, hgrows.creates, fun h ↦ absurd h hrules⟩
    rw [createAll]
    dsimp only
    split
    · rw [Act.ends_bind, Act.ends_emit]
      exact hstep
    · exact hstep

/-! ### Reviewing a file -/

private theorem findings_of_read {content : String}
    (h : m.read path (.text headRef) = .ok content) :
    m.findings r path = r.findings path (some content) (m.diffOf path) (m.baseFor r path) := by
  rw [findings, h]
  rfl

/-- What is planned for a file is what its findings give. -/
private theorem planned_of_findings {f : Findings} (hroute : isRouteFile r.config path = true)
    (hf : m.findings r path = .ok f) :
    m.planned r existing path = (f.report r path existing).planned := by
  simp only [planned, hf, if_pos hroute]

/-- Without the base revision the first ones of the annotations are planned that are planned
with it. -/
private theorem planned_prefix {content : String} {f : Findings}
    (hroute : isRouteFile r.config path = true) (hpass : m.Passes r path)
    (hcontent : m.read path (.text headRef) = .ok content)
    (hf : r.findings path (some content) (m.diffOf path) (some "") = .ok f) :
    (f.report r path existing).planned <+: m.planned r existing path := by
  have hbase (e : Failure)
      (he : r.findings path (some content) (m.diffOf path) (m.baseFor r path) = .error e) :
      ∃ t, e = .trouble t := by
    rw [← findings_of_read hcontent] at he
    obtain ⟨t, rfl, -⟩ := hpass hroute e he
    exact ⟨t, rfl⟩
  obtain ⟨hremoved, removed, hfound⟩ := Reviewer.findings_empty hf hbase
  rw [← findings_of_read hcontent] at hfound
  rw [planned_of_findings hroute hfound]
  simp only [Findings.report, Reviewer.reportOn, hremoved]
  exact (List.prefix_append_right_inj _).mpr List.nil_prefix

/-- The base revision of a file is read, taken to be empty, or not read. -/
private theorem ends_readBase :
    (Reviewer.readBase backend path ⟨.text baseRef, .text headRef⟩).Ends m fun x m' ↦
      m.Grows m' [] ∧ (x = .ok ((m.content? path (.text baseRef)).getD "") ∨
        m.rules ≠ [] ∧ (x = .ok "" ∨ ∃ e, x = .error e)) := by
  rw [Reviewer.readBase, Act.ends_recover]
  apply Act.Ends.imp (gives_content path _)
  rintro x m' ⟨hgrows, rfl | ⟨hrules, t, rfl⟩⟩
  · rw [read]
    cases m.content? path (.text baseRef) with
    | none => exact ⟨hgrows, .inl rfl⟩
    | some content => exact ⟨hgrows, .inl rfl⟩
  · dsimp only
    split
    next => exact ⟨hgrows, .inr ⟨hrules, .inl rfl⟩⟩
    next => exact ⟨hgrows, .inr ⟨hrules, .inr ⟨_, rfl⟩⟩⟩

/-- The base revision of a file is looked at as it is, taken to be empty, or not read. -/
private theorem ends_baseFor :
    (if r.config.checkRemoved then
        some <$> Reviewer.readBase backend path ⟨.text baseRef, .text headRef⟩
      else pure none : Act Memory (Option String)).Ends m fun x m' ↦
      m.Grows m' [] ∧ (x = .ok (m.baseFor r path) ∨
        m.rules ≠ [] ∧ (x = .ok (some "") ∨ ∃ e, x = .error e)) := by
  unfold baseFor
  split
  · rw [Act.ends_map]
    apply Act.Ends.imp ends_readBase
    rintro x m' ⟨hgrows, rfl | ⟨hrules, rfl | ⟨e, rfl⟩⟩⟩
    · exact ⟨hgrows, .inl rfl⟩
    · exact ⟨hgrows, .inr ⟨hrules, .inl rfl⟩⟩
    · exact ⟨hgrows, .inr ⟨hrules, .inr ⟨e, rfl⟩⟩⟩
  · exact ⟨Grows.refl m, .inl rfl⟩

/-- How the review of a file ends: it creates nothing; where no call fails it is the review of the
file's contents, and else it plans the first ones of the annotations planned there. -/
structure Reviews (m : Memory) (r : Reviewer) (existing : List Annotation) (path : String)
    (x : Except Failure FileReport) (m' : Memory) : Prop where
  grows : m.Grows m' []
  exact : m.rules = [] → x = (m.findings r path).map (·.report r path existing)
  begins : isRouteFile r.config path = true → m.Passes r path →
    ∀ report, x = .ok report → report.planned <+: m.planned r existing path

/-- The review of a file may be stopped by a failing call. -/
private theorem Grows.reviews {e : Failure} (h : m.Grows m' []) (hrules : m.rules ≠ []) :
    m.Reviews r existing path (.error e) m' :=
  ⟨h, fun h ↦ absurd h hrules, fun _ _ _ h ↦ nomatch h⟩

/-- The review of the contents of a file, its base revision as it is or taken to be empty. -/
private theorem reviews_contents {content : String} {base : Option String}
    (h : m.Grows m' []) (hread : m.read path (.text headRef) = .ok content)
    (hbase : base = m.baseFor r path ∨ m.rules ≠ [] ∧ base = some "") :
    m.Reviews r existing path
      (r.preview path (some content) (m.diffOf path) existing base) m' := by
  rw [Reviewer.preview_eq_map_findings]
  rcases hbase with rfl | ⟨hrules, rfl⟩
  · rw [← findings_of_read hread]
    refine ⟨h, fun _ ↦ rfl, fun hroute _ report hreport ↦ ?_⟩
    obtain ⟨f, hf, rfl⟩ := except_map_eq_ok_iff.mp hreport
    exact planned_of_findings hroute hf ▸ List.prefix_refl _
  · refine ⟨h, fun h ↦ absurd h hrules, fun hroute hpass report hreport ↦ ?_⟩
    obtain ⟨f, hf, rfl⟩ := except_map_eq_ok_iff.mp hreport
    exact planned_prefix hroute hpass hread hf

theorem ends_previewFrom (r : Reviewer) (existing : List Annotation) (path : String) :
    (r.previewFrom backend ⟨.text baseRef, .text headRef⟩ existing path).Ends m
      (m.Reviews r existing path) := by
  unfold Reviewer.previewFrom
  apply (gives_diff path _).ends_bind (Grows.refl m) fun _ _ h hrules ↦ h.reviews hrules
  intro m₁ h₁
  rw [Act.ends_bind]
  apply Act.Ends.imp (gives_content path _)
  rintro x m₂ ⟨h₂, hx⟩
  rw [h₁.read, h₁.rules] at hx
  replace h₂ := h₁.trans h₂
  rcases hx with rfl | ⟨hrules, t, rfl⟩
  · cases hread : m.read path (.text headRef) with
    | error e =>
      refine ⟨h₂, fun _ ↦ ?_, fun _ _ _ h ↦ nomatch h⟩
      rw [findings, hread]
      rfl
    | ok content =>
      have hbind (b : Bool) (x y : Act Memory (Option String))
          (k : Option String → Act Memory FileReport) :
          (if b then x >>= k else y >>= k) = (if b then x else y) >>= k := by
        split <;> rfl
      dsimp only
      rw [hbind, Act.ends_bind]
      apply Act.Ends.imp ends_baseFor
      rintro x m₃ ⟨h₃, hx⟩
      rw [h₂.rules, h₂.baseFor] at hx
      replace h₃ := h₂.trans h₃
      rcases hx with rfl | ⟨hrules, rfl | ⟨e, rfl⟩⟩
      · exact Act.ends_ofExcept.mpr (reviews_contents h₃ hread (.inl rfl))
      · exact Act.ends_ofExcept.mpr (reviews_contents h₃ hread (.inr ⟨hrules, rfl⟩))
      · exact h₃.reviews hrules
  · exact h₂.reviews hrules

/-- Of what is planned for a file the first annotations are created, and all where no call
fails. -/
private theorem ends_annotate (change : Token) (file : FileReport) {report : RunReport}
    (hlive : report.dryRun = false) :
    (r.annotate backend change report file).Ends m fun x m' ↦
      ∃ taken, taken <+: file.planned ∧ m.Creates m' taken ∧
        (∀ report', x = .ok report' → report'.dryRun = false) ∧
        (m.rules = [] → (∃ report', x = .ok report') ∧ taken = file.planned) := by
  unfold Reviewer.annotate
  rw [Act.ends_bind, Act.ends_print]
  dsimp only
  rw [hlive, if_neg Bool.false_ne_true, Act.ends_bind]
  apply Act.Ends.imp (ends_createAll change r.delay none file.planned)
  rintro x m' ⟨taken, htaken, hcreates, hall⟩
  cases x with
  | ok ids =>
    refine ⟨taken, htaken, hcreates, fun report' h ↦ ?_, fun h ↦ ⟨⟨_, rfl⟩, (hall h).2⟩⟩
    rw [← Except.ok.inj h]
  | error e =>
    refine ⟨taken, htaken, hcreates, (fun _ h ↦ nomatch h), fun h ↦ ?_⟩
    obtain ⟨ids, hids⟩ := (hall h).1
    cases hids

/-- A file that fails does not stop a run where its failure concerns the file alone. -/
private theorem ends_fileFailed (report : RunReport) (failure : Failure) :
    (r.fileFailed report path failure : Act Memory RunReport).Ends m fun x m' ↦
      m' = m ∧ (∀ report', x = .ok report' → report'.dryRun = report.dryRun) ∧
        ((∃ report', x = .ok report') ↔
          ∃ t, failure = .trouble t ∧ t.concernsFile = true ∧ r.config.failFast = false) := by
  unfold Reviewer.fileFailed
  split
  next t =>
    split
    next hfile =>
      simp only [Act.ends_bind, Act.ends_warn]
      cases hfast : r.config.failFast with
      | true =>
        rw [if_pos rfl, Act.ends_bind, Act.ends_fail]
        simp
      | false =>
        rw [if_neg Bool.false_ne_true, Act.ends_pure]
        refine ⟨rfl, fun report' h ↦ ?_, fun _ ↦ ⟨t, rfl, hfile, rfl⟩, fun _ ↦ ⟨_, rfl⟩⟩
        rw [← Except.ok.inj h]
    next hfile =>
      rw [Act.ends_fail]
      simp [hfile]
  next hfailure =>
    rw [Act.ends_fail]
    refine ⟨rfl, (fun _ h ↦ absurd h (by simp)), ?_⟩
    constructor
    · rintro ⟨_, h⟩
      exact absurd h (by simp)
    · rintro ⟨t, ht, _⟩
      exact absurd ht (hfailure t)

/-- How the work on a file ends. Where the file does not stop the run, the first ones of the
annotations planned for it are created, and all where no call fails; and where no call fails the
run goes on unless the file stops it. -/
structure Works (m : Memory) (r : Reviewer) (existing : List Annotation) (path : String)
    (x : Except Failure RunReport) (m' : Memory) : Prop where
  creates : ∃ taken, m.Creates m' taken ∧
    (m.Passes r path → taken <+: m.planned r existing path ∧
      (m.rules = [] → taken = m.planned r existing path))
  live : ∀ report, x = .ok report → report.dryRun = false
  goes : m.rules = [] → ((∃ report, x = .ok report) ↔ m.Passes r path)

/-- A file without routes is passed over. -/
private theorem works_skipped {report : RunReport} (hroute : ¬isRouteFile r.config path = true)
    (hlive : report.dryRun = false) : m.Works r existing path (.ok report) m := by
  have hnone : m.planned r existing path = [] := by
    unfold planned
    split
    · rw [if_neg hroute]
    · rfl
  have hpass : m.Passes r path := fun h ↦ absurd h hroute
  refine ⟨⟨[], (Grows.refl m).creates, fun _ ↦ ?_⟩, fun report' h ↦ ?_, fun _ ↦ ?_⟩
  · rw [hnone]
    exact ⟨List.prefix_refl _, fun _ ↦ rfl⟩
  · rw [← Except.ok.inj h, hlive]
  · exact ⟨fun _ ↦ hpass, fun _ ↦ ⟨report, rfl⟩⟩

/-- A file whose review gives a report is annotated by it. -/
private theorem Reviews.annotated {file : FileReport} {x : Except Failure RunReport}
    {taken : List Draft} (h : m.Reviews r existing path (.ok file) m')
    (hroute : isRouteFile r.config path = true) (htaken : taken <+: file.planned)
    (hcreates : m'.Creates m'' taken) (hlive : ∀ report, x = .ok report → report.dryRun = false)
    (hall : m'.rules = [] → (∃ report, x = .ok report) ∧ taken = file.planned) :
    m.Works r existing path x m'' := by
  rw [h.grows.rules] at hall
  have hfound (hrules : m.rules = []) :
      ∃ f, m.findings r path = .ok f ∧ f.report r path existing = file :=
    except_map_eq_ok_iff.mp (h.exact hrules).symm
  refine ⟨⟨taken, h.grows.creates.trans hcreates, fun hpass ↦ ⟨?_, fun hrules ↦ ?_⟩⟩, hlive,
    fun hrules ↦ ⟨fun _ _ e he ↦ ?_, fun _ ↦ (hall hrules).1⟩⟩
  · exact htaken.trans (h.begins hroute hpass file rfl)
  · obtain ⟨f, hf, rfl⟩ := hfound hrules
    rw [(hall hrules).2, planned_of_findings hroute hf]
  · obtain ⟨f, hf, -⟩ := hfound hrules
    cases hf.symm.trans he

/-- A file whose review fails is not annotated. -/
private theorem Reviews.failed {failure : Failure} {x : Except Failure RunReport}
    (h : m.Reviews r existing path (.error failure) m')
    (hroute : isRouteFile r.config path = true)
    (hlive : ∀ report, x = .ok report → report.dryRun = false)
    (hgoes : (∃ report, x = .ok report) ↔
      ∃ t, failure = .trouble t ∧ t.concernsFile = true ∧ r.config.failFast = false) :
    m.Works r existing path x m' := by
  have hfails (hrules : m.rules = []) : m.findings r path = .error failure :=
    except_map_eq_error_iff.mp (h.exact hrules).symm
  refine ⟨⟨[], h.grows.creates, fun _ ↦ ⟨List.nil_prefix, fun hrules ↦ ?_⟩⟩, hlive,
    fun hrules ↦ ?_⟩
  · rw [planned, hfails hrules]
  · rw [hgoes]
    constructor
    · intro hfile _ e he
      have heq : failure = e := Except.error.inj ((hfails hrules).symm.trans he)
      rw [← heq]
      exact hfile
    · intro hpass
      exact hpass hroute failure (hfails hrules)

theorem ends_reviewFile (change : Token) (existing : List Annotation) (path : String)
    {report : RunReport} (hlive : report.dryRun = false) :
    (r.reviewFile backend change ⟨.text baseRef, .text headRef⟩ existing report path).Ends m
      (m.Works r existing path) := by
  unfold Reviewer.reviewFile
  split
  next hroute =>
    rw [Act.ends_pure]
    exact works_skipped (by simpa using hroute) hlive
  next hroute =>
    replace hroute : isRouteFile r.config path = true := by simpa using hroute
    dsimp only
    rw [Act.ends_bind, Act.ends_attempt]
    apply Act.Ends.imp (ends_previewFrom r existing path)
    intro x m' hreviews
    cases x with
    | ok file =>
      have hnext : RunReport.dryRun { report with considered := report.considered + 1 } = false :=
        hlive
      dsimp only
      apply Act.Ends.imp (ends_annotate change file hnext)
      rintro y m'' ⟨taken, htaken, hcreates, hlive', hall⟩
      exact hreviews.annotated hroute htaken hcreates hlive' hall
    | error failure =>
      dsimp only
      apply Act.Ends.imp (ends_fileFailed _ failure)
      rintro y _ ⟨rfl, hlive', hgoes⟩
      exact hreviews.failed hroute (fun report' h ↦ (hlive' report' h).trans hlive) hgoes

/-! ### Whole runs -/

/-- How a run over the files of some paths ends. Where no file stops it, it has created the first
ones of the annotations planned for each file, and all where no call fails; and where no call
fails it gets to the end unless a file stops it. -/
def Covers (m : Memory) (r : Reviewer) (existing : List Annotation) (paths : List String)
    (goes : Prop) (x : Except Failure RunReport) (m' : Memory) : Prop :=
  (∃ taken : String → List Draft, m.Creates m' (paths.flatMap taken) ∧
    (goes → ∀ path ∈ paths, taken path <+: m.planned r existing path ∧
      (m.rules = [] → taken path = m.planned r existing path))) ∧
    (m.rules = [] → ((∃ report, x = .ok report) ↔ goes))

/-- A run that a failing call stops has created the first ones of the annotations, namely none. -/
theorem Grows.covers {paths : List String} {goes : Prop} {x : Except Failure RunReport}
    (h : m.Grows m' []) (hrules : m.rules ≠ []) : m.Covers r existing paths goes x m' := by
  refine ⟨⟨fun _ ↦ [], ?_, fun _ _ _ ↦ ⟨List.nil_prefix, fun h ↦ absurd h hrules⟩⟩,
    fun h ↦ absurd h hrules⟩
  rw [List.flatMap_eq_nil_iff.mpr fun _ _ ↦ rfl]
  exact h.creates

/-- What was taken for the files but the first, and for the first file. -/
private theorem flatMap_taken {paths : List String} {taken : List Draft}
    {others : String → List Draft} (h : path ∉ paths) :
    (path :: paths).flatMap (fun p ↦ if p = path then taken else others p) =
      taken ++ paths.flatMap others := by
  have hothers (p : String) (hp : p ∈ paths) :
      (if p = path then taken else others p) = others p := by
    rw [if_neg]
    rintro rfl
    exact h hp
  rw [List.flatMap_cons, if_pos rfl, List.flatMap_def, List.map_congr_left hothers,
    ← List.flatMap_def]

/-- The files after one that does not stop the run are covered from where it left off: what was
created for it does not change what is planned for them. -/
private theorem Works.covers_cons {paths : List String} {report : RunReport}
    {y : Except Failure RunReport} (h : m.Works r existing path (.ok report) m')
    (hnew : path ∉ paths)
    (hrest : m'.Covers r existing paths (∀ path ∈ paths, m'.Passes r path) y m'') :
    m.Covers r existing (path :: paths) (∀ p ∈ path :: paths, m.Passes r p) y m'' := by
  obtain ⟨taken, hcreates, htaken⟩ := h.creates
  obtain ⟨added, hgrows⟩ := hcreates.grows
  obtain ⟨⟨others, hcreates', hothers⟩, hgoes⟩ := hrest
  simp only [hgrows.passes_iff, hgrows.planned, hgrows.rules] at hothers hgoes
  refine ⟨⟨fun p ↦ if p = path then taken else others p, ?_, ?_⟩, fun hrules ↦ ?_⟩
  · rw [flatMap_taken hnew]
    exact hcreates.trans hcreates'
  · intro hpass p hp
    obtain ⟨hfirst, hpass⟩ := List.forall_mem_cons.mp hpass
    dsimp only
    by_cases heq : p = path
    · rw [if_pos heq, heq]
      exact htaken hfirst
    · rw [if_neg heq]
      exact hothers hpass p ((List.mem_cons.mp hp).resolve_left heq)
  · rw [hgoes hrules, List.forall_mem_cons]
    exact (and_iff_right ((h.goes hrules).mp ⟨report, rfl⟩)).symm

/-- A file that stops the run leaves the files after it without annotations. -/
private theorem Works.covers_stopped {paths : List String} {e : Failure}
    (h : m.Works r existing path (.error e) m') (hnew : path ∉ paths) :
    m.Covers r existing (path :: paths) (∀ p ∈ path :: paths, m.Passes r p) (.error e) m' := by
  obtain ⟨taken, hcreates, htaken⟩ := h.creates
  have hstops (hrules : m.rules = []) : ¬m.Passes r path := by
    intro hpass
    obtain ⟨report, hreport⟩ := (h.goes hrules).mpr hpass
    cases hreport
  refine ⟨⟨fun p ↦ if p = path then taken else [], ?_, ?_⟩, fun hrules ↦ ?_⟩
  · rw [flatMap_taken hnew, List.flatMap_eq_nil_iff.mpr fun _ _ ↦ rfl, List.append_nil]
    exact hcreates
  · intro hpass p hp
    have hfirst := (List.forall_mem_cons.mp hpass).1
    dsimp only
    by_cases heq : p = path
    · rw [if_pos heq, heq]
      exact htaken hfirst
    · rw [if_neg heq]
      exact ⟨List.nil_prefix, fun hrules ↦ absurd hfirst (hstops hrules)⟩
  · refine ⟨(fun ⟨_, h⟩ ↦ nomatch h), fun hpass ↦ ?_⟩
    exact absurd (List.forall_mem_cons.mp hpass).1 (hstops hrules)

theorem ends_reviewFiles (change : Token) (existing : List Annotation) (paths : List String)
    (hpaths : paths.Nodup) {report : RunReport} (hlive : report.dryRun = false) :
    (r.reviewFiles backend change ⟨.text baseRef, .text headRef⟩ existing report
      (paths.map .text)).Ends m (m.Covers r existing paths (∀ path ∈ paths, m.Passes r path)) := by
  induction paths generalizing m report with
  | nil =>
    refine ⟨⟨fun _ ↦ [], (Grows.refl m).creates, fun _ _ h ↦ absurd h List.not_mem_nil⟩, ?_⟩
    exact fun _ ↦ ⟨fun _ _ h ↦ absurd h List.not_mem_nil, fun _ ↦ ⟨_, rfl⟩⟩
  | cons path paths ih =>
    obtain ⟨hnew, hpaths⟩ := List.nodup_cons.mp hpaths
    rw [List.map_cons, Reviewer.reviewFiles, Act.ends_bind]
    apply Act.Ends.imp (ends_reviewFile change existing path hlive)
    intro x m' hworks
    cases x with
    | ok report' =>
      apply Act.Ends.imp (ih hpaths (hworks.live report' rfl))
      intro y m'' hrest
      exact hworks.covers_cons hnew hrest
    | error e => exact hworks.covers_stopped hnew

/-- Calling for attention creates nothing, and succeeds where no call fails. -/
private theorem ends_escalate (change : Token) (report : RunReport) :
    (r.escalate backend change report).Ends m fun x m' ↦
      m.Grows m' [] ∧ (m.rules = [] → ∃ report', x = .ok report') := by
  unfold Reviewer.escalate
  split
  next => exact ⟨Grows.refl m, fun _ ↦ ⟨_, rfl⟩⟩
  next =>
    have hstop (s : Memory) (t : Trouble) (h : m.Grows s []) (hrules : m.rules ≠ []) :
        m.Grows s [] ∧
          (m.rules = [] → ∃ report' : RunReport, Except.error (Failure.trouble t) = .ok report') :=
      ⟨h, fun h ↦ absurd h hrules⟩
    apply (gives_requestChanges change _).ends_bind (Grows.refl m) hstop
    intro m₁ h₁
    apply (gives_ensureLabel change _).ends_bind h₁ hstop
    intro m₂ h₂
    exact ⟨h₂, fun _ ↦ ⟨_, rfl⟩⟩

private theorem dryRun_of_emptyReport {change : Token} {dryRun : Bool} {report : RunReport}
    (h : Reviewer.emptyReport change dryRun = .ok report) : report.dryRun = dryRun := by
  obtain ⟨_, rfl⟩ := Reviewer.eq_of_emptyReport h
  rfl

/-- The paths of the files of a change. -/
def paths (m : Memory) : List String := m.files.map (·.path)

/-- The annotations of a reviewer's author. -/
def own (m : Memory) (r : Reviewer) : List Annotation :=
  m.annotations.filter (·.author = some r.config.author)

/-- Nothing but a failing call stops a run. -/
def Reviewable (m : Memory) (r : Reviewer) (change : Token) : Prop :=
  (∃ report, Reviewer.emptyReport change false = .ok report) ∧ ∀ path ∈ m.paths, m.Passes r path

/-- A run covers the files of the change by what it creates. -/
theorem ends_run (r : Reviewer) (change : Token) (hpaths : m.paths.Nodup) :
    (r.run backend change false).Ends m
      (m.Covers r (m.own r) m.paths (m.Reviewable r change)) := by
  unfold Reviewer.run
  rw [Act.ends_bind, Act.ends_ofExcept]
  cases hreport : Reviewer.emptyReport change false with
  | error e =>
    have hnot : ¬m.Reviewable r change := by
      rintro ⟨⟨report, h⟩, -⟩
      cases hreport.symm.trans h
    refine ⟨⟨fun _ ↦ [], ?_, fun h ↦ absurd h hnot⟩, fun _ ↦ ⟨(fun ⟨_, h⟩ ↦ nomatch h), ?_⟩⟩
    · rw [List.flatMap_eq_nil_iff.mpr fun _ _ ↦ rfl]
      exact (Grows.refl m).creates
    · exact fun h ↦ absurd h hnot
  | ok report =>
    have hstop (s : Memory) (t : Trouble) (h : m.Grows s []) (hrules : m.rules ≠ []) :
        m.Covers r (m.own r) m.paths (m.Reviewable r change) (.error (.trouble t)) s :=
      h.covers hrules
    apply (gives_revisions change).ends_bind (Grows.refl m) hstop
    intro m₁ h₁
    apply (gives_changedFiles change).ends_bind h₁ hstop
    intro m₂ h₂
    apply (gives_annotations change).ends_bind h₂ hstop
    intro m₃ h₃
    have hfiles : m₁.files.map (fun file ↦ Json.text file.path) = m.paths.map .text := by
      rw [h₁.files, paths, List.map_map]
      rfl
    have hown : m₂.annotations.filter (·.author = some r.config.author) = m.own r := by
      rw [h₂.annotations, List.append_nil, own]
    dsimp only
    rw [Act.ends_bind, Act.ends_print, hfiles, hown]
    dsimp only
    rw [Act.ends_bind]
    apply Act.Ends.imp (ends_reviewFiles change (m.own r) m.paths hpaths
      (dryRun_of_emptyReport hreport))
    rintro x m₄ ⟨⟨taken, hcreates, htaken⟩, hgoes⟩
    simp only [h₃.passes_iff, h₃.planned, h₃.rules] at htaken hgoes
    cases x with
    | ok report' =>
      apply Act.Ends.imp (ends_escalate change report')
      rintro y m₅ ⟨h₅, hy⟩
      obtain ⟨added, hgrows⟩ := hcreates.grows
      rw [hgrows.rules, h₃.rules] at hy
      refine ⟨⟨taken, ?_, fun hruns ↦ htaken hruns.2⟩, fun hrules ↦ ⟨fun _ ↦ ?_, fun _ ↦ hy hrules⟩⟩
      · have := (h₃.creates.trans hcreates).trans h₅.creates
        rwa [List.nil_append, List.append_nil] at this
      · exact ⟨⟨report, hreport⟩, (hgoes hrules).mp ⟨report', rfl⟩⟩
    | error e =>
      refine ⟨⟨taken, h₃.creates.trans hcreates, fun hruns ↦ htaken hruns.2⟩,
        fun hrules ↦ ⟨(fun ⟨_, h⟩ ↦ nomatch h), fun hruns ↦ ?_⟩⟩
      obtain ⟨report', h⟩ := (hgoes hrules).mpr hruns.2
      cases h

end Memory

end RouteWatch
