import RouteWatch.Files.Tree

/-!
# Writing a file

An entry that is set where no folder stands leaves every way through the tree as it is. So a path
at which a file can be written, once the folders above it are made, stays such a path, and what
is written there is read there.
-/

namespace RouteWatch.Tree

variable {t t' : Tree} {l m start : Location} {e : Entry} {p q : Path}

/-! ### Setting an entry -/

private theorem lookup_filter_of_ne {entries : List (Location × Entry)} (h : m ≠ l) :
    (entries.filter (·.1 ≠ l)).lookup m = entries.lookup m := by
  induction entries with
  | nil => rfl
  | cons entry entries ih =>
    by_cases hl : entry.1 = l
    · have hm : (m == entry.1) = false := beq_false_of_ne (hl ▸ h)
      rw [List.filter_cons_of_neg (by simpa using hl), ih, List.lookup_cons, hm]
    · rw [List.filter_cons_of_pos (by simpa using hl), List.lookup_cons, List.lookup_cons, ih]

/-- Setting an entry leaves the other locations alone. -/
theorem entryAt_setEntry_of_ne (h : m ≠ l) : (t.setEntry l e).entryAt m = t.entryAt m := by
  unfold entryAt setEntry
  split
  · rfl
  · rw [List.lookup_cons, beq_false_of_ne h, lookup_filter_of_ne h]

/-- No way leads through a location that is no folder. -/
theorem follow_setEntry {names : List String} (hl : t.entryAt l ≠ some .folder)
    (h : t.follow start names = .ok m) : (t.setEntry l e).follow start names = .ok m := by
  induction names generalizing start with
  | nil => exact h
  | cons name names ih =>
    rw [follow] at h ⊢
    cases hstart : t.entryAt start with
    | none =>
      rw [hstart] at h
      exact nomatch h
    | some entry =>
      rw [hstart] at h
      cases entry with
      | file content => exact nomatch h
      | folder =>
        have hne : start ≠ l := fun he ↦ hl (he ▸ hstart)
        rw [entryAt_setEntry_of_ne hne, hstart]
        exact ih h

theorem locate_setEntry (hl : t.entryAt l ≠ some .folder) (h : t.locate p = .ok m) :
    (t.setEntry l e).locate p = .ok m := by
  unfold locate at h ⊢
  split
  next hnul =>
    rw [if_pos hnul] at h
    exact nomatch h
  next hnul =>
    rw [if_neg hnul] at h
    exact follow_setEntry hl h

/-- What stands at a path stands at the location that the path leads to. -/
theorem at?_eq_some_iff :
    t.at? p = some e ↔ ∃ l, t.locate p = .ok l ∧ t.entryAt l = some e := by
  unfold at?
  cases t.locate p <;> simp

/-- A folder stays where it is when an entry is set elsewhere. -/
theorem at?_setEntry_of_folder (hl : t.entryAt l ≠ some .folder) (h : t.at? p = some .folder) :
    (t.setEntry l e).at? p = some .folder := by
  obtain ⟨m, hm, hfolder⟩ := at?_eq_some_iff.mp h
  have hne : m ≠ l := fun he ↦ hl (he ▸ hfolder)
  exact at?_eq_some_iff.mpr ⟨m, locate_setEntry hl hm, by rw [entryAt_setEntry_of_ne hne, hfolder]⟩

private theorem entryAt_setEntry_of_free (hl : t.entryAt l ≠ some .folder) :
    (t.setEntry l e).entryAt l = some e := by
  apply entryAt_setEntry_self
  rintro rfl
  exact hl rfl

/-- What is set at the location of a path stands at the path. -/
theorem at?_setEntry_self (hl : t.entryAt l ≠ some .folder) (h : t.locate p = .ok l) :
    (t.setEntry l e).at? p = some e :=
  at?_eq_some_iff.mpr ⟨l, locate_setEntry hl h, entryAt_setEntry_of_free hl⟩

/-! ### Making folders -/

private theorem at?_of_makeFolder (h : t.makeFolder p = .ok t') : t'.at? p = some .folder := by
  unfold makeFolder at h
  cases hl : t.locate p with
  | error cause =>
    rw [hl] at h
    exact nomatch h
  | ok l =>
    simp only [hl] at h
    cases hentry : t.entryAt l with
    | some entry =>
      rw [hentry] at h
      exact nomatch h
    | none =>
      rw [hentry] at h
      cases h
      exact at?_setEntry_self (by rw [hentry]; exact nofun) hl

private theorem at?_of_ensureFolder (h : t.ensureFolder p = .ok t') :
    t'.at? p = some .folder := by
  unfold ensureFolder at h
  split at h
  · next hmade =>
    cases h
    exact at?_of_makeFolder hmade
  · split at h
    · next hfolder =>
      cases h
      exact hfolder
    · exact nomatch h

private theorem at?_of_ensureFolders {root : String} {count : Nat} {names : List String}
    (h : t.ensureFolders root count names = .ok t') : t'.at? ⟨root, names⟩ = some .folder := by
  cases count with
  | zero => exact at?_of_ensureFolder h
  | succ count =>
    rw [ensureFolders] at h
    split at h
    · next hmade =>
      cases h
      exact at?_of_ensureFolder hmade
    · split at h
      · split at h
        · exact at?_of_ensureFolder h
        · exact nomatch h
      · exact nomatch h

/-- A folder stands at a path down to which folders were made. -/
theorem at?_of_withFolders (h : t.withFolders p = .ok t') : t'.at? p = some .folder :=
  at?_of_ensureFolders h

/-- Where a folder stands, none has to be made. -/
theorem withFolders_of_folder (h : t.at? p = some .folder) : t.withFolders p = .ok t := by
  have hensure : t.ensureFolder p = .ok t := by
    obtain ⟨l, hl, hfolder⟩ := at?_eq_some_iff.mp h
    simp only [ensureFolder, makeFolder, hl, hfolder, if_pos h]
  unfold withFolders
  cases p.names.length with
  | zero => exact hensure
  | succ count =>
    rw [ensureFolders]
    simp only [hensure]

/-! ### Writing -/

theorem write_eq_ok_iff {content : List UInt8} :
    t.write p content = .ok t' ↔
      ∃ l, t.locate p = .ok l ∧ t.entryAt l ≠ some .folder ∧
        t' = t.setEntry l (.file content) := by
  unfold write
  cases t.locate p with
  | error cause => simp
  | ok l =>
    by_cases hfolder : t.entryAt l = some .folder
    · simp [hfolder]
    · simp [hfolder, eq_comm (a := t')]

/-- A file is read where it stands. -/
theorem read_of_at? {content : List UInt8} (shown : String)
    (h : t.at? p = some (.file content)) : t.read p shown = .ok content := by
  obtain ⟨l, hl, hfile⟩ := at?_eq_some_iff.mp h
  simp only [read, hl, hfile]

/-- What is read stands there. -/
theorem has_of_read {content : List UInt8} {shown : String} (h : t.read p shown = .ok content) :
    t.has p = true := by
  unfold read at h
  cases hl : t.locate p with
  | error cause =>
    rw [hl] at h
    exact nomatch h
  | ok l =>
    simp only [hl] at h
    cases hentry : t.entryAt l with
    | none =>
      rw [hentry] at h
      exact nomatch h
    | some entry => rw [has, at?_eq_some_iff.mpr ⟨l, hl, hentry⟩, Option.isSome_some]

/-- A file can be written at the path, once the folders above it are made. -/
def Writable (t : Tree) (p : Path) : Prop :=
  ∃ t₁ t₂, t.withFolders p.parent = .ok t₁ ∧ t₁.write p [] = .ok t₂

/-- At a path at which a file can be written any content can, and afterwards again. -/
theorem Writable.stores (h : t.Writable p) (content : List UInt8) :
    ∃ t₁ t₂, t.withFolders p.parent = .ok t₁ ∧ t₁.write p content = .ok t₂ ∧
      t₂.at? p = some (.file content) ∧ t₂.Writable p := by
  obtain ⟨t₁, t₂, hfolders, hwrite⟩ := h
  obtain ⟨l, hl, hfree, rfl⟩ := write_eq_ok_iff.mp hwrite
  refine ⟨t₁, t₁.setEntry l (.file content), hfolders, write_eq_ok_iff.mpr ⟨l, hl, hfree, rfl⟩,
    at?_setEntry_self hfree hl, _, _,
    withFolders_of_folder (at?_setEntry_of_folder hfree (at?_of_withFolders hfolders)),
    write_eq_ok_iff.mpr ⟨l, locate_setEntry hfree hl, ?_, rfl⟩⟩
  rw [entryAt_setEntry_of_free hfree]
  exact nofun

end RouteWatch.Tree
