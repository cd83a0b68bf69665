import RouteWatch.Files.Reading
import RouteWatch.Proofs.Files.Tree

/-!
# What reading a file comes to

A text is read where a file stands and its bytes are UTF-8. Where no file stands the fault is one of
the file system, unless the path holds a NUL character: no file has such a name, and the fault is
that of the path.
-/

namespace RouteWatch.Tree

open RouteWatch.Text (universalNewlines)

variable {t : Tree} {p : Path}

/-- Where no file stands nothing is read. -/
theorem read_of_no_file (shown : String) (h : ∀ bytes, t.at? p ≠ some (.file bytes)) :
    ∃ fault, t.read p shown = .error fault := by
  unfold at? at h
  unfold read
  split
  next => exact ⟨_, rfl⟩
  next l hl =>
    rw [hl] at h
    dsimp only at h
    split
    next => exact ⟨_, rfl⟩
    next => exact ⟨_, rfl⟩
    next content hentry => exact absurd hentry (h content)

/-- Nothing stands at a path with a NUL character. -/
theorem at?_of_hasNul (h : p.hasNul = true) : t.at? p = none := by
  rw [at?, locate, if_pos h]

private theorem follow_ne_nul {l : Location} {names : List String} :
    t.follow l names ≠ .error .nul := by
  induction names generalizing l with
  | nil => simp [follow]
  | cons name names ih =>
    rw [follow]
    split
    · simp
    · simp
    · exact ih

/-- A path leads nowhere for a NUL character just where it has one. -/
theorem locate_eq_nul_iff : t.locate p = .error .nul ↔ p.hasNul = true := by
  unfold locate
  split
  next hnul => exact iff_of_true rfl hnul
  next hnul => exact iff_of_false follow_ne_nul hnul

/-- A path is refused for a NUL character just where it has one. -/
private theorem cause_eq_nul_iff {shown : String} {fault : FileFault}
    (h : t.read p shown = .error fault) : fault.cause = .nul ↔ p.hasNul = true := by
  rw [← locate_eq_nul_iff (t := t)]
  unfold read at h
  split at h
  next hlocate =>
    obtain rfl := Except.error.inj h
    rw [hlocate, Except.error.injEq]
  next hlocate =>
    rw [hlocate]
    split at h
    · obtain rfl := Except.error.inj h
      simp
    · obtain rfl := Except.error.inj h
      simp
    · exact nomatch h

/-- What reading the text at a path comes to. -/
inductive Reads (t : Tree) (p : Path) : Prop
  /-- A file stands there, and its text is read as far as it is UTF-8. -/
  | file {bytes : List UInt8} (hnul : p.hasNul = false) (hfile : t.at? p = some (.file bytes))
    (hread : ∀ shown, t.readText p shown =
      match Text.Utf8.decode bytes with
      | .error fault => .error (.undecodable fault)
      | .ok text => .ok (universalNewlines text))
  /-- No file stands there, and the fault is one of the file system. -/
  | missing (hnul : p.hasNul = false) (hnone : ∀ bytes, t.at? p ≠ some (.file bytes))
    (hread : ∀ shown, ∃ fault, t.readText p shown = .error (.file fault))
  /-- The path holds a NUL character. -/
  | nul (hnul : p.hasNul = true) (hread : ∀ shown, t.readText p shown = .error .nulPath)

theorem reads (t : Tree) (p : Path) : t.Reads p := by
  cases hnul : p.hasNul with
  | true =>
    refine .nul hnul fun shown ↦ ?_
    obtain ⟨fault, hfault⟩ := read_of_no_file (t := t) (p := p) shown fun bytes h ↦ by
      rw [at?_of_hasNul hnul] at h
      exact nomatch h
    rw [readText, hfault]
    exact congrArg Except.error (if_pos ((cause_eq_nul_iff hfault).mpr hnul))
  | false =>
    by_cases hfile : ∃ bytes, t.at? p = some (.file bytes)
    · obtain ⟨bytes, hfile⟩ := hfile
      refine .file hnul hfile fun shown ↦ ?_
      cases hdecode : Text.Utf8.decode bytes <;> simp [readText, read_of_at? shown hfile, hdecode]
    · refine .missing hnul (not_exists.mp hfile) fun shown ↦ ?_
      obtain ⟨fault, hfault⟩ := read_of_no_file shown (not_exists.mp hfile)
      have hcause : ¬fault.cause = .nul := fun he ↦
        Bool.noConfusion (hnul.symm.trans ((cause_eq_nul_iff hfault).mp he))
      exact ⟨fault, by simp only [readText, hfault, if_neg hcause]⟩

/-- The file at a path, if one stands there, is UTF-8. -/
def IsUtf8 (t : Tree) (p : Path) : Prop :=
  ∀ bytes, t.at? p = some (.file bytes) → ∃ text, Text.Utf8.decode bytes = .ok text

/-- Reading a text fails for nothing but the file system just where the path has no NUL character
and the file is UTF-8. -/
theorem blames_file_iff (shown : String) :
    p.hasNul = false ∧ t.IsUtf8 p ↔
      ∀ fault, t.readText p shown = .error fault → ∃ f, fault = .file f := by
  unfold IsUtf8
  cases t.reads p with
  | @file bytes hnul hfile hread =>
    rw [hread, hfile, hnul]
    simp only [Option.some.injEq, Entry.file.injEq, forall_eq', true_and]
    cases Text.Utf8.decode bytes <;> simp
  | missing hnul hnone hread =>
    obtain ⟨f, hf⟩ := hread shown
    rw [hf, hnul]
    exact iff_of_true ⟨rfl, fun bytes hfile ↦ absurd hfile (hnone bytes)⟩
      fun fault he ↦ ⟨f, (Except.error.inj he).symm⟩
  | nul hnul hread =>
    rw [hread, hnul]
    exact iff_of_false (fun h ↦ Bool.noConfusion h.1) fun h ↦ nomatch h .nulPath rfl

end RouteWatch.Tree
