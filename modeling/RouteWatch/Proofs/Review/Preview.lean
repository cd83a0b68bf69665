import RouteWatch.Proofs.Except
import RouteWatch.Review.Preview

/-!
# What a review of a file consists of

A review of a file succeeds where its diff is read and its blocks are found, and its report says
what these two and the annotations that exist give.
-/

namespace RouteWatch.Reviewer

open RouteWatch.Diff (FileDiff)

/-- The report on a file whose diff has been read and whose blocks have been found. -/
def reportOn (r : Reviewer) (path : String) (d : FileDiff) (blocks : List Block)
    (removed : List Candidate) (existing : List Annotation) : FileReport :=
  let candidates := changedBlocks blocks d.changed
  let right := plan path r.comment d.hunks existing .right candidates
  let left := plan path r.comment d.hunks existing .left removed
  { path, blocks, candidates, removed
    planned := right.drafts ++ left.drafts
    skipped := right.skipped + left.skipped
    createdIds := [] }

/-- What a review of a file finds, whatever annotations exist. -/
structure Findings where
  diff : FileDiff
  blocks : List Block
  removed : List Candidate

/-- The report on a file that these findings give. -/
def Findings.report (f : Findings) (r : Reviewer) (path : String) (existing : List Annotation) :
    FileReport :=
  r.reportOn path f.diff f.blocks f.removed existing

/-- What a review finds in a file and its diff. -/
def findings (r : Reviewer) (path : String) (content : Option String) (diff : String)
    (base : Option String) : Except Failure Findings := do
  let diff ← readDiff diff path
  let blocks ← scanText r.scanner content (some path) none
  let removed ← r.removedIn path diff base
  return ⟨diff, blocks, removed⟩

/-- The reviewer of the settings that a run begins with. -/
def ofDefaults : Reviewer where
  config := {}
  scanner := match scannerFor defaultDeclaration with
    | .ok s => s
    | .error _ => ⟨fun _ ↦ .ok none, closesBlock, closesSingleLine⟩
  comment := defaultComment

variable {r : Reviewer} {path diff : String} {content base : Option String}
  {existing : List Annotation} {report : FileReport}

/-- A review reads a diff where the diff can be read. -/
theorem readDiff_eq_ok_iff {d : FileDiff} :
    readDiff diff path = .ok d ↔ FileDiff.ofText diff path = .ok d := by
  unfold readDiff
  split <;> simp_all

/-- A review finds blocks where the scan does. -/
theorem scanText_eq_ok_iff {s : Scanner} {file identifier : Option String} {blocks : List Block} :
    scanText s content file identifier = .ok blocks ↔
      ∃ text, content = some text ∧ s.scan identifier (Text.lines text) = .ok blocks := by
  unfold scanText scanLines
  cases content with
  | none => simp
  | some text =>
    dsimp only
    split <;> simp_all

/-- A review reports on its findings. -/
theorem preview_eq_map_findings :
    r.preview path content diff existing base =
      (r.findings path content diff base).map (·.report r path existing) := by
  unfold preview findings
  cases readDiff diff path with
  | error e => rfl
  | ok d =>
    cases scanText r.scanner content (some path) none with
    | error e => rfl
    | ok blocks =>
      simp only [bind, Except.bind]
      cases r.removedIn path d base <;> rfl

/-- A review finds something where its parts succeed. -/
theorem findings_eq_ok_iff {f : Findings} :
    r.findings path content diff base = .ok f ↔
      FileDiff.ofText diff path = .ok f.diff ∧
        scanText r.scanner content (some path) none = .ok f.blocks ∧
        r.removedIn path f.diff base = .ok f.removed := by
  unfold findings
  simp only [except_bind_eq_ok_iff, readDiff_eq_ok_iff]
  constructor
  · rintro ⟨d, hd, blocks, hblocks, removed, hremoved, hf⟩
    obtain rfl := Except.ok.inj hf
    exact ⟨hd, hblocks, hremoved⟩
  · rintro ⟨hd, hblocks, hremoved⟩
    exact ⟨_, hd, _, hblocks, _, hremoved, rfl⟩

/-- A review succeeds where its parts do. -/
theorem preview_eq_ok_iff :
    r.preview path content diff existing base = .ok report ↔
      ∃ d blocks removed, FileDiff.ofText diff path = .ok d ∧
        scanText r.scanner content (some path) none = .ok blocks ∧
        r.removedIn path d base = .ok removed ∧
        r.reportOn path d blocks removed existing = report := by
  rw [preview_eq_map_findings, except_map_eq_ok_iff]
  constructor
  · rintro ⟨f, hf, hreport⟩
    obtain ⟨hd, hblocks, hremoved⟩ := findings_eq_ok_iff.mp hf
    exact ⟨_, _, _, hd, hblocks, hremoved, hreport⟩
  · rintro ⟨d, blocks, removed, hd, hblocks, hremoved, hreport⟩
    exact ⟨⟨d, blocks, removed⟩, findings_eq_ok_iff.mpr ⟨hd, hblocks, hremoved⟩, hreport⟩

/-- The candidates of the base revision are found where its blocks are. A base revision that is not
given has none. -/
theorem removedIn_eq_ok_iff {d : FileDiff} {removed : List Candidate} :
    r.removedIn path d base = .ok removed ↔
      ∃ blocks, r.scanner.scan none (Text.lines (base.getD "")) = .ok blocks ∧
        removedBlocks blocks d.removed = removed := by
  unfold removedIn
  cases base with
  | none =>
    constructor
    · intro h
      obtain rfl := Except.ok.inj h
      exact ⟨[], rfl, rfl⟩
    · rintro ⟨blocks, hblocks, rfl⟩
      obtain rfl : [] = blocks := Except.ok.inj hblocks
      rfl
  | some text =>
    rw [except_map_eq_ok_iff]
    apply exists_congr
    intro blocks
    rw [scanText_eq_ok_iff]
    simp

/-- A review succeeds where the diff is read and the blocks of both revisions are found. -/
theorem preview_eq_reportOn {text : String} {d : FileDiff} {blocks baseBlocks : List Block}
    (hd : FileDiff.ofText diff path = .ok d)
    (hblocks : r.scanner.scan none (Text.lines text) = .ok blocks)
    (hbase : r.scanner.scan none (Text.lines (base.getD "")) = .ok baseBlocks) :
    r.preview path (some text) diff existing base =
      .ok (r.reportOn path d blocks (removedBlocks baseBlocks d.removed) existing) :=
  preview_eq_ok_iff.mpr ⟨d, blocks, _, hd, scanText_eq_ok_iff.mpr ⟨text, rfl, hblocks⟩,
    removedIn_eq_ok_iff.mpr ⟨baseBlocks, hbase, rfl⟩, rfl⟩

/-- In an empty base revision nothing was removed. -/
theorem removedIn_empty (d : FileDiff) : r.removedIn path d (some "") = .ok [] := by
  rw [removedIn, scanText_eq_ok_iff.mpr ⟨"", rfl, rfl⟩]
  rfl

/-- Looking for removed routes fails with no trouble of the file. -/
theorem removedIn_ne_trouble {d : FileDiff} {t : Trouble} :
    r.removedIn path d base ≠ .error (.trouble t) := by
  unfold removedIn scanText scanLines
  split
  next => intro h; cases h
  next =>
    dsimp only
    split <;> intro h <;> cases h

/-- Without the base revision a review finds the same but for what was removed, unless the base
revision is what the review fails for. -/
theorem findings_empty {f : Findings} (h : r.findings path content diff (some "") = .ok f)
    (hbase : ∀ e, r.findings path content diff base = .error e → ∃ t, e = .trouble t) :
    f.removed = [] ∧ ∃ removed,
      r.findings path content diff base = .ok ⟨f.diff, f.blocks, removed⟩ := by
  obtain ⟨hd, hblocks, hremoved⟩ := findings_eq_ok_iff.mp h
  rw [removedIn_empty] at hremoved
  refine ⟨(Except.ok.inj hremoved).symm, ?_⟩
  cases hr : r.removedIn path f.diff base with
  | ok removed => exact ⟨removed, findings_eq_ok_iff.mpr ⟨hd, hblocks, hr⟩⟩
  | error e =>
    have hfails : r.findings path content diff base = .error e := by
      rw [findings, readDiff_eq_ok_iff.mpr hd, hblocks]
      simp only [bind, Except.bind, hr]
    obtain ⟨t, rfl⟩ := hbase e hfails
    exact absurd hr removedIn_ne_trouble

end RouteWatch.Reviewer
